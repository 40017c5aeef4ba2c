import ResponseCache.Proofs.Layer.Lead
import ResponseCache.Store.Memory

/-!
This module contains how far single flights keep requests that miss under one key from running their
handlers together. The request that leads a flight is the only one that does. A request that has
followed one flight does not follow another one, but runs its handler beside it.
-/

namespace ResponseCache

open Cache

/-- Whether a request missed under a key and its handler is at work. -/
def Task.isExecuting (layer : Layer) (key : String) (t : Task) : Bool :=
  match t.phase with
  | .running .miss _ _ _ => layer.keyOf t.job = some key
  | _ => false

/-- The requests that missed under a key and whose handlers are at work. -/
def Cache.executing {σ : Type} (c : Cache σ) (layer : Layer) (key : String) : List Nat :=
  (List.range c.tasks.length).filter fun i => c.tasks[i]?.any (Task.isExecuting layer key)

section

variable {σ : Type}

/-- Whether a request has read the store under a key so many times, or more. -/
def HasRead (c : Cache σ) (i : Nat) (key : String) (n : Nat) : Prop :=
  ∃ results : List (Except StoreError (Option Entry)), results.length = n
    ∧ (results.map fun result => Note.mk i (.read key result)).Sublist c.history

variable {layer : Layer} {c c' : Cache σ} {i : Nat} {task : Task} {e : Effect σ} {key : String}
  {n : Nat} {job : Job}

theorem HasRead.zero (c : Cache σ) (i : Nat) (key : String) : HasRead c i key 0 :=
  ⟨[], rfl, List.nil_sublist _⟩

theorem HasRead.mono (h : HasRead c i key n) (hgrows : c.Grows c') : HasRead c' i key n := by
  obtain ⟨results, hlength, hsublist⟩ := h
  exact ⟨results, hlength, hsublist.trans hgrows.2.sublist⟩

theorem HasRead.of_le {m : Nat} (h : HasRead c i key n) (hle : m ≤ n) : HasRead c i key m := by
  obtain ⟨results, hlength, hsublist⟩ := h
  refine ⟨results.take m, ?_, ?_⟩
  . rw [List.length_take, hlength]
    omega
  . exact ((List.take_sublist m results).map _).trans hsublist

theorem HasRead.succ (h : HasRead c i key n) {result : Except StoreError (Option Entry)}
    (hmem : .read key result ∈ e.records) : HasRead (c.after i task e) i key (n + 1) := by
  obtain ⟨results, hlength, hsublist⟩ := h
  refine ⟨results ++ [result], ?_, ?_⟩
  . rw [List.length_append, hlength]
    rfl
  . rw [List.map_append]
    exact sublist_after hsublist hmem

/-- The key that a request goes under, as far as it goes on under it. -/
def Phase.key? : Phase → Option String
  | .reading key _ => some key
  | .discarding key _ => some key
  | .deciding key _ _ => some key
  | .joining key _ => some key
  | .locking guard _ => some guard.key
  | .queued guard _ => some guard.key
  | .calling _ guard => guard.map Guard.key
  | .running _ guard _ _ => guard.map Guard.key
  | _ => none

/-- How often a request has read the store until it looks for a flight or asks for a lock. -/
def Phase.reads : Phase → Nat
  | .reading _ again => again.toNat
  | .discarding _ again => again.toNat
  | .deciding _ _ again => again.toNat + 1
  | .joining _ again => again.toNat + 1
  | .locking _ _ => 1
  | .queued _ _ => 1
  | _ => 0

structure Placed (layer : Layer) (c : Cache σ) (i : Nat) (job : Job) (phase : Phase) : Prop where
  keyOf_eq : ∀ {key}, phase.key? = some key → layer.keyOf job = some key
  hasRead : ∀ {key}, layer.keyOf job = some key → HasRead c i key phase.reads

namespace Placed

variable {phase next : Phase}

theorem mono (h : Placed layer c i job phase) (hgrows : c.Grows c') :
    Placed layer c' i job phase where
  keyOf_eq := h.keyOf_eq
  hasRead hkey := (h.hasRead hkey).mono hgrows

theorem of_key?_eq_none (hkey : phase.key? = none) (hreads : phase.reads = 0) :
    Placed layer c i job phase where
  keyOf_eq h := by
    rw [hkey] at h
    nomatch h
  hasRead _ := by
    rw [hreads]
    exact .zero _ _ _

theorem of_finish (guard : Option Guard) (answer : Answer) :
    Placed layer c i job (.finish guard answer) := by
  cases guard with
  | none => exact of_key?_eq_none rfl rfl
  | some guard => exact of_key?_eq_none rfl rfl

theorem without_read (h : Placed layer c i job phase) (hkey : next.key? = phase.key?)
    (hreads : next.reads ≤ phase.reads) : Placed layer c i job next where
  keyOf_eq hnext := h.keyOf_eq (hkey ▸ hnext)
  hasRead hkey := (h.hasRead hkey).of_le hreads

theorem with_read (h : Placed layer c i task.job phase)
    (hold : phase.key? = some key) (hkey : next.key? = some key)
    (hreads : next.reads = phase.reads + 1) {result : Except StoreError (Option Entry)}
    (hmem : .read key result ∈ e.records) : Placed layer (c.after i task e) i task.job next where
  keyOf_eq hnext := by
    rw [hkey] at hnext
    exact h.keyOf_eq (hold.trans hnext)
  hasRead {other} hother := by
    obtain rfl := Option.some.inj ((h.keyOf_eq hold).symm.trans hother)
    rw [hreads]
    exact (h.hasRead hother).succ hmem

theorem of_transition [Backend σ] (hget : c.tasks[i]? = some task) (h : Transition layer c i task e)
    (hplaced : Placed layer c i task.job task.phase) :
    Placed layer (c.after i task e) i task.job e.phase := by
  have hold := hplaced.mono (grows_after hget e)
  cases h with
  | keyed hphase hready hkey =>
    constructor
    . intro key hreading
      rw [hkey, ← hreading]
      rfl
    . intro key _
      exact .zero _ _ _
  | foundExpired hphase hresult =>
    rw [hphase] at hold
    exact hold.without_read rfl (Nat.le_refl _)
  | looked hphase hresult hfound =>
    rw [hphase] at hplaced
    exact hplaced.with_read rfl rfl rfl (List.mem_append_left _ (List.mem_singleton_self _))
  | lookFailed hphase hresult =>
    rw [hphase] at hplaced
    exact hplaced.with_read rfl rfl rfl (List.mem_append_left _
      (List.mem_append_left _ (List.mem_append_left _ (List.mem_singleton_self _))))
  | discarded hphase =>
    rw [hphase] at hplaced
    exact hplaced.with_read rfl rfl rfl (List.mem_singleton_self _)
  | missedAgain hphase hdecision =>
    rw [hphase] at hold
    exact hold.without_read rfl (Nat.le_refl _)
  | missed hphase hdecision hflight =>
    rw [hphase] at hold
    exact hold.without_read rfl (Nat.le_refl _)
  | began hphase hlead =>
    rw [hphase] at hold
    exact hold.without_read rfl (Nat.le_add_left 1 _)
  | followed hphase hlead =>
    rw [hphase] at hold
    exact hold.without_read rfl (Nat.le_refl _)
  | queued hphase hholder =>
    rw [hphase] at hold
    exact hold.without_read rfl (Nat.le_refl _)
  | ledAtOnce hphase hholder =>
    rw [hphase] at hold
    exact hold.without_read rfl (Nat.zero_le _)
  | followedAtOnce hphase hholder =>
    rw [hphase] at hold
    exact hold.without_read rfl (Nat.le_refl _)
  | led hphase hholder =>
    rw [hphase] at hold
    exact hold.without_read rfl (Nat.zero_le _)
  | waited hphase hholder =>
    rw [hphase] at hold
    exact hold.without_read rfl (Nat.le_refl _)
  | called hphase hready =>
    rw [hphase] at hold
    exact hold.without_read rfl (Nat.le_refl _)
  | paused hphase =>
    rw [hphase] at hold
    exact hold.without_read rfl (Nat.le_refl _)
  | refused hphase hready => exact of_finish _ _
  | failed hphase hanswer => exact of_finish _ _
  | unstorable hphase hkey => exact of_finish _ _
  | wrote hphase hresult => exact of_finish _ _
  | writeFailed hphase hresult => exact of_finish _ _
  | writeAborted hphase hresult => exact of_finish _ _
  | _ => exact of_key?_eq_none rfl rfl

end Placed

def AllPlaced (layer : Layer) (c : Cache σ) : Prop :=
  ∀ i task, c.tasks[i]? = some task → Placed layer c i task.job task.phase

theorem AllPlaced.after (hc : AllPlaced layer c) (hget : c.tasks[i]? = some task)
    (h : Placed layer (c.after i task e) i task.job e.phase) :
    AllPlaced layer (c.after i task e) := by
  intro k task' hget'
  cases getElem?_after e hget' with
  | inl hself =>
    obtain ⟨rfl, rfl⟩ := hself
    exact h
  | inr hother => exact (hc k task' hother.2).mono (grows_after hget e)

theorem AllPlaced.enlist (hc : AllPlaced layer c) (job : Job) :
    AllPlaced layer (c.enlist job).1 := by
  intro k task hget
  cases getElem?_enlist hget with
  | inl hold => exact (hc k task hold).mono (grows_enlist c job)
  | inr hnew =>
    obtain ⟨-, rfl⟩ := hnew
    exact .of_key?_eq_none rfl rfl

theorem AllPlaced.move [Backend σ] {drift : σ → σ → Prop} (hc : AllPlaced layer c)
    (hmove : Move layer drift c c') : AllPlaced layer c' := by
  apply hmove.rule hc hc.enlist
  . intro i task e hget h
    exact hc.after hget (.of_transition hget h (hc i task hget))
  . intro i task hget
    exact hc.after hget (.of_key?_eq_none rfl rfl)
  . intro store clock systemTime _ i task hget
    exact (hc i task hget).mono (.refl c)

theorem isExecuting_iff {t : Task} :
    t.isExecuting layer key = true ↔
      layer.keyOf t.job = some key
        ∧ ∃ guard pauses call, t.phase = .running .miss guard pauses call := by
  unfold Task.isExecuting
  split
  next guard pauses call hphase =>
    rw [decide_eq_true_eq, hphase]
    exact ⟨fun hkey => ⟨hkey, guard, pauses, call, rfl⟩, fun h => h.1⟩
  next hphase =>
    refine ⟨nofun, fun h => ?_⟩
    obtain ⟨-, guard, pauses, call, hrunning⟩ := h
    exact absurd hrunning (hphase guard pauses call)

theorem allPlaced_of_reachable [Backend σ] {drift : σ → σ → Prop} {store : σ}
    {clock systemTime : Time}
    (hreach : Reachable layer drift (start store clock systemTime) c) : AllPlaced layer c := by
  have hstart : AllPlaced layer (start store clock systemTime) := fun _ _ hget => nomatch hget
  exact hreach.invariant hstart AllPlaced.move

theorem leads_of_isExecuting (hc : AllPlaced layer c) (hget : c.tasks[i]? = some task)
    (hexecuting : task.isExecuting layer key = true) (hlead : task.phase.lead? ≠ none) :
    ∃ guard, Leads c i guard ∧ guard.key = key := by
  obtain ⟨hkey, guard, pauses, call, hphase⟩ := isExecuting_iff.1 hexecuting
  have hplaced := hc i task hget
  rw [hphase] at hlead hplaced
  cases guard with
  | none => exact absurd rfl hlead
  | some guard =>
    refine ⟨guard, ⟨task, hget, ?_⟩, ?_⟩
    . rw [hphase]
      rfl
    . exact Option.some.inj ((hplaced.keyOf_eq rfl).symm.trans hkey)

/-- Whether a request follows a flight, or has followed one and has not gone to its handler yet. -/
def Phase.isFollowing : Phase → Bool
  | .locking _ .follower => true
  | .queued _ .follower => true
  | .reading _ again => again
  | .discarding _ again => again
  | .deciding _ _ again => again
  | .joining _ again => again
  | _ => false

/-- Whether a request that missed goes to its handler without a flight, or has gone there. -/
def Phase.isPassing : Phase → Bool
  | .calling .miss none => true
  | .running .miss none _ _ => true
  | _ => false

theorem not_isFollowing_finish (guard : Option Guard) (answer : Answer) :
    ¬(Phase.finish guard answer).isFollowing = true := by
  cases guard <;> exact Bool.false_ne_true

theorem isPassing_running (decision : Decision) (guard : Option Guard) (pauses call : Nat) :
    (Phase.running decision guard pauses call).isPassing
      = (Phase.calling decision guard).isPassing := by
  cases decision <;> cases guard <;> rfl

theorem not_isPassing_finish (guard : Option Guard) (answer : Answer) :
    ¬(Phase.finish guard answer).isPassing = true := by
  cases guard <;> exact Bool.false_ne_true

theorem Transition.eq_of_following [Backend σ] (h : Transition layer c i task e)
    (hold : ¬task.phase.isFollowing = true) (hnew : e.phase.isFollowing = true) :
    ∃ key, task.phase = .joining key false ∧ c.flights.lead? key ≠ none := by
  cases h with
  | @followed key id hphase hlead =>
    refine ⟨key, hphase, ?_⟩
    rw [hlead]
    nofun
  | foundExpired hphase =>
    rw [hphase] at hold
    exact absurd hnew hold
  | looked hphase =>
    rw [hphase] at hold
    exact absurd hnew hold
  | lookFailed hphase =>
    rw [hphase] at hold
    exact absurd hnew hold
  | discarded hphase =>
    rw [hphase] at hold
    exact absurd hnew hold
  | missedAgain hphase =>
    rw [hphase] at hold
    exact absurd hnew hold
  | @queued guard role _ hphase =>
    rw [hphase] at hold
    cases role with
    | leader => exact absurd hnew Bool.false_ne_true
    | follower => exact absurd rfl hold
  | followedAtOnce hphase =>
    rw [hphase] at hold
    exact absurd hnew hold
  | waited hphase =>
    rw [hphase] at hold
    exact absurd hnew hold
  | refused => exact absurd hnew (not_isFollowing_finish _ _)
  | failed => exact absurd hnew (not_isFollowing_finish _ _)
  | unstorable => exact absurd hnew (not_isFollowing_finish _ _)
  | wrote => exact absurd hnew (not_isFollowing_finish _ _)
  | writeFailed => exact absurd hnew (not_isFollowing_finish _ _)
  | writeAborted => exact absurd hnew (not_isFollowing_finish _ _)
  | _ => exact absurd hnew Bool.false_ne_true

theorem Transition.eq_of_passing [Backend σ] (hflight : layer.singleFlight = true)
    (h : Transition layer c i task e) (hold : ¬task.phase.isPassing = true)
    (hnew : e.phase.isPassing = true) :
    ∃ key, task.phase = .joining key true ∧ c.flights.lead? key ≠ none := by
  cases h with
  | @passedBy key id hphase hlead =>
    refine ⟨key, hphase, ?_⟩
    rw [hlead]
    nofun
  | @unguarded key found decision hphase hdecision hne hbypass =>
    cases decision with
    | miss => exact absurd ⟨hflight, rfl⟩ hbypass
    | hit => exact absurd hnew Bool.false_ne_true
    | bypass => exact absurd hnew Bool.false_ne_true
  | called hphase =>
    rw [hphase] at hold
    simp only [stay, isPassing_running] at hnew
    exact absurd hnew hold
  | paused hphase =>
    rw [hphase, isPassing_running] at hold
    simp only [stay, isPassing_running] at hnew
    exact absurd hnew hold
  | refused => exact absurd hnew (not_isPassing_finish _ _)
  | failed => exact absurd hnew (not_isPassing_finish _ _)
  | unstorable => exact absurd hnew (not_isPassing_finish _ _)
  | wrote => exact absurd hnew (not_isPassing_finish _ _)
  | writeFailed => exact absurd hnew (not_isPassing_finish _ _)
  | writeAborted => exact absurd hnew (not_isPassing_finish _ _)
  | _ => exact absurd hnew Bool.false_ne_true

/-- Whether a request that has read the store, for the first or second time, finds a flight. -/
structure FindsFlight (c : Cache σ) (i : Nat) (key : String) (again : Bool) : Prop where
  phase?_eq : c.phase? i = some (.joining key again)
  lead?_ne_none : c.flights.lead? key ≠ none
  hasRead : HasRead c i key (again.toNat + 1)

/--
Whether a request has found a flight, which it followed, and later on in the run another one, or still
the same, which it did not follow.
-/
def PassedBy [Backend σ] (layer : Layer) (drift : σ → σ → Prop) (start c : Cache σ) (i : Nat)
    (key : String) : Prop :=
  ∃ first second, Reachable layer drift start first ∧ FindsFlight first i key false
    ∧ Reachable layer drift first second ∧ FindsFlight second i key true
    ∧ Reachable layer drift second c

theorem findsFlight_of_joining (hc : AllPlaced layer c) (hget : c.tasks[i]? = some task)
    (hkey : layer.keyOf task.job = some key) {found : String} {again : Bool}
    (hphase : task.phase = .joining found again) (hlead : c.flights.lead? found ≠ none) :
    FindsFlight c i key again := by
  have hplaced := hc i task hget
  rw [hphase] at hplaced
  obtain rfl : found = key := Option.some.inj ((hplaced.keyOf_eq rfl).symm.trans hkey)
  refine ⟨?_, hlead, hplaced.hasRead hkey⟩
  unfold phase?
  rw [hget, ← hphase]
  rfl

theorem passedBy_of_isPassing [Backend σ] {drift : σ → σ → Prop} {store : σ}
    {clock systemTime : Time} (hflight : layer.singleFlight = true)
    (hreach : Reachable layer drift (start store clock systemTime) c)
    (hget : c.tasks[i]? = some task) (hkey : layer.keyOf task.job = some key)
    (hpassing : task.phase.isPassing = true) :
    PassedBy layer drift (start store clock systemTime) c i key := by
  -- Backwards through the run: to where it passed by a flight, from there to where it followed one.
  obtain ⟨second, later, e, hsecond, hon, hlater, hjob, h, hold, hnew⟩ :=
    hreach.entered (Q := fun phase => phase.isPassing = true) nofun nofun rfl hget hpassing
  obtain ⟨found, hphase, hlead⟩ := h.eq_of_passing hflight hold hnew
  rw [← hjob] at hkey
  have hfollowing : later.phase.isFollowing = true := by rw [hphase]; rfl
  obtain ⟨first, earlier, e', hfirst, hon', hearlier, hjob', h', hold', hnew'⟩ :=
    hsecond.entered (Q := fun phase => phase.isFollowing = true) nofun nofun rfl hlater hfollowing
  obtain ⟨found', hphase', hlead'⟩ := h'.eq_of_following hold' hnew'
  have hkey' := hkey
  rw [← hjob'] at hkey'
  refine ⟨first, second, hfirst, ?_, hon', ?_, hon⟩
  . exact findsFlight_of_joining (allPlaced_of_reachable hfirst) hearlier hkey' hphase' hlead'
  . exact findsFlight_of_joining (allPlaced_of_reachable hsecond) hlater hkey hphase hlead

theorem isPassing_of_isExecuting (hexecuting : task.isExecuting layer key = true)
    (hlead : task.phase.lead? = none) : task.phase.isPassing = true := by
  obtain ⟨-, guard, pauses, call, hphase⟩ := isExecuting_iff.1 hexecuting
  rw [hphase] at hlead ⊢
  cases guard with
  | none => rfl
  | some guard => nomatch hlead

/--
With single flights, one request at most runs its handler under a key that leads a flight. Any other
one has read the store twice and has found a flight for the key both times. It followed the first one,
but went to its handler beside the second one.
-/
theorem executing_of_reachable [Backend σ] {drift : σ → σ → Prop} {store : σ}
    {clock systemTime : Time} (hflight : layer.singleFlight = true)
    (hreach : Reachable layer drift (start store clock systemTime) c) (key : String) :
    (∀ {i j : Nat} {task other : Task}, c.tasks[i]? = some task → c.tasks[j]? = some other →
        task.isExecuting layer key = true → other.isExecuting layer key = true →
        task.phase.lead? ≠ none → other.phase.lead? ≠ none → i = j)
      ∧ ∀ {i : Nat} {task : Task}, c.tasks[i]? = some task →
        task.isExecuting layer key = true → task.phase.lead? = none →
        PassedBy layer drift (start store clock systemTime) c i key := by
  have hplaced := allPlaced_of_reachable hreach
  have horderly := hreach.invariant (Orderly.start store clock systemTime) Orderly.move
  constructor
  . intro i j task other hi hj htask hother hleads hleads'
    obtain ⟨guard, hguard, hkey⟩ := leads_of_isExecuting hplaced hi htask hleads
    obtain ⟨guard', hguard', hkey'⟩ := leads_of_isExecuting hplaced hj hother hleads'
    exact horderly.eq_of_leads hguard hguard' (hkey.trans hkey'.symm)
  . intro i task hget hexecuting hlead
    obtain ⟨hkey, -⟩ := isExecuting_iff.1 hexecuting
    exact passedBy_of_isPassing hflight hreach hget hkey (isPassing_of_isExecuting hexecuting hlead)

end

def failedLeader : Cache MemoryStore :=
  let failing : Job := .sample 1 (.error "")
  let waiting : Job := .sample 1 (.ok .empty)
  let c := (((start .empty .epoch .epoch).enlist failing).1.enlist waiting).1
  [0, 1, 2, 0, 1, 2].foldl (fun c i => c.turn (.sample true) i) (c.enlist waiting).1

theorem reachable_failedLeader :
    Reachable (.sample true) (fun _ _ => False) (start .empty .epoch .epoch) failedLeader := by
  unfold failedLeader
  apply Reachable.turns
  exact ((Reachable.start.enlist _).enlist _).enlist _

/-- Of the two requests that run their handlers, one leads, and the other was passed by. -/
theorem leader_and_passer_of_failedLeader :
    (Layer.sample true).singleFlight = true
      ∧ Reachable (.sample true) (fun _ _ => False) (start .empty .epoch .epoch) failedLeader
      ∧ (∀ {i : Nat} {task : Task}, failedLeader.tasks[i]? = some task →
        task.isExecuting (.sample true) "GET /" = true → task.phase.lead? ≠ none → i = 1)
      ∧ PassedBy (.sample true) (fun _ _ => False) (start .empty .epoch .epoch) failedLeader 2
        "GET /" := by
  have hflight : (Layer.sample true).singleFlight = true := rfl
  have hexclusion := executing_of_reachable hflight reachable_failedLeader "GET /"
  have hleader : (failedLeader.tasks[1]?.any fun t =>
      t.isExecuting (.sample true) "GET /" && t.phase.lead?.isSome) = true := by
    decide +kernel
  have hpasser : (failedLeader.tasks[2]?.any fun t =>
      t.isExecuting (.sample true) "GET /" && t.phase.lead?.isNone) = true := by
    decide +kernel
  obtain ⟨leader, hleader, hleads⟩ := (Option.any_eq_true _ _).1 hleader
  obtain ⟨passer, hpasser, hpasses⟩ := (Option.any_eq_true _ _).1 hpasser
  rw [Bool.and_eq_true] at hleads hpasses
  refine ⟨hflight, reachable_failedLeader, ?_, ?_⟩
  . intro i task hget hexecuting hlead
    exact hexclusion.1 hget hleader hexecuting hleads.1 hlead (Option.isSome_iff_ne_none.1 hleads.2)
  . exact hexclusion.2 hpasser hpasses.1 (Option.isNone_iff_eq_none.1 hpasses.2)

/-- After the first of three requests failed, the others run their handlers together. -/
theorem executing_failedLeader :
    (Layer.sample true).singleFlight = true
      ∧ Reachable (.sample true) (fun _ _ => False) (start .empty .epoch .epoch) failedLeader
      ∧ failedLeader.executing (.sample true) "GET /" = [1, 2] :=
  ⟨rfl, reachable_failedLeader, by decide +kernel⟩

end ResponseCache
