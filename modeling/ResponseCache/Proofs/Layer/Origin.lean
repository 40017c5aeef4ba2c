import ResponseCache.Proofs.Capture
import ResponseCache.Proofs.EntityTag
import ResponseCache.Proofs.Layer.Growth

/-!
This module contains what it takes for an entry to be written: a request that missed under a key, whose
handler was called and gave a whole response with a status that is stored. None of this is ever taken
back, and what happens after it can be told in the order in which it happened.
-/

namespace ResponseCache

open Cache

/-- The entry that is made of what a handler answered is as short as the format needs it. -/
theorem Snapshot.fits_of_capture {call : Nat} {handler : Handler} {snapshot : Snapshot}
    (hanswer : (handler.answer call >>= Reply.capture) = .ok snapshot) (key : String) (generated : Time) :
    (snapshot.toEntry (EntityTag.generate key snapshot.body generated) generated).Fits := by
  cases hreply : handler.answer call with
  | error message =>
    rw [hreply] at hanswer
    nomatch hanswer
  | ok reply =>
    rw [hreply] at hanswer
    apply Reply.fits_of_capture hanswer
    rw [EntityTag.length_generate]
    decide

section

variable {σ : Type}

/--
A request that missed under a key that it may store a response under. A trail of what happened from
then on starts with the decision.
-/
structure Missed (layer : Layer) (c : Cache σ) (i : Nat) (job : Job) (key : String)
    (trail : List Note) : Prop where
  job_eq : c.jobs[i]? = some job
  key_eq : layer.keyOf job = some key
  noStore_eq : (Layer.directivesOf job).noStore = false
  isDisabled_eq : layer.policy.isDisabled = false
  trail_sublist :
    (⟨i, .logged (.decided key .miss job.request.method job.request.target)⟩ :: trail).Sublist
      c.history

/--
An entry that was made of what the handler of a request answered that missed. The whole body was there,
and responses with the status are stored.
-/
structure Origin (layer : Layer) (c : Cache σ) (i : Nat) (job : Job) (key : String) (entry : Entry)
    (trail : List Note) : Prop extends Missed layer c i job key (⟨i, .called⟩ :: trail) where
  answered : ∃ n snapshot generated, c.callers[n]? = some i
    ∧ (job.handler.answer (n + 1) >>= Reply.capture) = .ok snapshot
    ∧ entry = snapshot.toEntry
      (EntityTag.generate (layer.tagKey job) snapshot.body generated) generated
  stores_eq : layer.stores entry.status = true

variable {layer : Layer} {c c' : Cache σ} {i j : Nat} {task : Task} {job : Job} {key : String}
  {entry : Entry} {trail : List Note} {e : Effect σ}

theorem mem_records {α : Type} {access : Access σ α} {first : List Record} {record : Record}
    (h : record ∈ first) : record ∈ access.records first :=
  List.mem_append_left _ h

theorem mem_reporting {records : List Record} {event : Event} {record : Record}
    (h : record ∈ records) : record ∈ c.reporting layer records event :=
  List.mem_append_left _ h

theorem Finding.entry?_eq_some {found : Finding} : found.entry? = some entry ↔ found = .live entry := by
  cases found with
  | absent => exact ⟨nofun, nofun⟩
  | expired => exact ⟨nofun, nofun⟩
  | live other =>
    unfold Finding.entry?
    rw [Option.some.injEq, Finding.live.injEq]

theorem Decision.outcome_eq_hit {decision : Decision} :
    decision.outcome = .hit ↔ decision = .hit := by
  cases decision <;> decide

theorem Layer.storageKey?_eq_some {decision : Decision} :
    layer.storageKey? job decision entry = some key
      ↔ layer.keyOf job = some key ∧ decision = .miss ∧ layer.stores entry.status = true := by
  unfold Layer.storageKey?
  rw [Option.filter_eq_some_iff, Bool.and_eq_true, decide_eq_true_eq]

namespace Missed

theorem mono (h : Missed layer c i job key trail) (hgrows : c.Grows c') :
    Missed layer c' i job key trail where
  job_eq := getElem?_of_isPrefix hgrows.1 h.job_eq
  key_eq := h.key_eq
  noStore_eq := h.noStore_eq
  isDisabled_eq := h.isDisabled_eq
  trail_sublist := h.trail_sublist.trans hgrows.2.sublist

theorem concat (h : Missed layer c i job key trail) (hget : c.tasks[j]? = some task)
    {record : Record} (hmem : record ∈ e.records) :
    Missed layer (c.after j task e) i job key (trail ++ [⟨j, record⟩]) where
  job_eq := (jobs_after hget e).symm ▸ h.job_eq
  key_eq := h.key_eq
  noStore_eq := h.noStore_eq
  isDisabled_eq := h.isDisabled_eq
  trail_sublist := sublist_after h.trail_sublist hmem

theorem of_decided {found : Option Entry} {now : Time} (hget : c.tasks[i]? = some task)
    (hkey : layer.keyOf task.job = some key)
    (hdecision : decideRequest found layer.policy (Layer.directivesOf task.job) now = .miss)
    (hmem : .logged (.decided key .miss task.job.request.method task.job.request.target)
      ∈ e.records) :
    Missed layer (c.after i task e) i task.job key [] where
  job_eq := (jobs_after hget e).symm ▸ getElem?_jobs hget
  key_eq := hkey
  noStore_eq := (enabled_of_decideRequest_eq_miss hdecision).2
  isDisabled_eq := (enabled_of_decideRequest_eq_miss hdecision).1
  trail_sublist := by
    rw [List.singleton_sublist]
    exact List.mem_append_right _ (List.mem_map_of_mem hmem)

end Missed

namespace Origin

theorem mono (h : Origin layer c i job key entry trail) (hgrows : c.Grows c') :
    Origin layer c' i job key entry trail where
  toMissed := h.toMissed.mono hgrows
  answered := by
    obtain ⟨n, snapshot, generated, hcaller, hanswer, hentry⟩ := h.answered
    exact ⟨n, snapshot, generated, getElem?_of_isPrefix (callers_of_grows hgrows) hcaller, hanswer,
      hentry⟩
  stores_eq := h.stores_eq

theorem concat (h : Origin layer c i job key entry trail) (hget : c.tasks[j]? = some task)
    {record : Record} (hmem : record ∈ e.records) :
    Origin layer (c.after j task e) i job key entry (trail ++ [⟨j, record⟩]) where
  toMissed := h.toMissed.concat hget hmem
  answered := (h.mono (grows_after hget e)).answered
  stores_eq := h.stores_eq

theorem fits (h : Origin layer c i job key entry trail) : entry.Fits := by
  obtain ⟨n, snapshot, generated, -, hanswer, rfl⟩ := h.answered
  exact Snapshot.fits_of_capture hanswer _ _

theorem ofString?_etag (h : Origin layer c i job key entry trail) :
    ∃ value, HeaderValue.ofString? entry.etag = some value := by
  obtain ⟨n, snapshot, generated, -, -, hentry⟩ := h.answered
  obtain ⟨value, hvalue, -⟩ :=
    EntityTag.ofString?_generate (layer.tagKey job) snapshot.body generated
  refine ⟨value, ?_⟩
  rw [hentry]
  exact hvalue

end Origin

end

end ResponseCache
