import ResponseCache.Proofs.Layer.Fidelity
import ResponseCache.Proofs.Layer.Path
import ResponseCache.Proofs.Layer.TagList

/-!
This module contains how a cache recognizes the tags that it has given out. Every response has just the tag
that was made for its body. A client that lists it later on, whatever else it lists, is not sent the body once
more, and nobody calls the handler for it.
-/

namespace ResponseCache

open Cache Backend.Faithful

namespace EntityTag

def made (key : String) (body : Bytes) (generated : Time) : Tag where
  weak := false
  label := Bytes.toHex ((Bytes.sha256 (material key body generated)).take 16)
  quote_not_mem hmem := absurd (mem_of_mem_toHex hmem) (by decide)

/-- A text that lists a tag among other elements, with blanks around it, be it marked as weak or not. -/
def Lists (text : List Char) (etag : String) : Prop :=
  ∃ (first last : List (List Char)) (before after : Blanks) (weak : Bool),
    text = List.intercalate [','] (first
      ++ (before.text ++ (if weak then ['W', '/'] else []) ++ etag.toList ++ after.text) :: last)

/-- That a client lists a tag in one of the values that tell what it has already. -/
def ListedBy (request : Request) (etag : String) : Prop :=
  ∃ value ∈ request.headers.getAll "if-none-match", ∃ text, value.text? = some text ∧ Lists text etag

section

variable {key : String} {body : Bytes} {generated : Time}

theorem toList_generate : (generate key body generated).toList = (made key body generated).spelled :=
  String.toList_ofList

theorem comma_not_mem_label : ',' ∉ (made key body generated).label :=
  fun hmem => absurd (mem_of_mem_toHex hmem) (by decide)

theorem isNamed_of_listedBy {request : Request} (h : ListedBy request (generate key body generated)) :
    isNamed (request.headers.getAll "if-none-match") (generate key body generated) = true := by
  obtain ⟨value, hvalue, text, htext, first, last, before, after, weak, rfl⟩ := h
  let listed : Listed := ⟨before, { made key body generated with weak := weak }, after⟩
  have hspelled : before.text ++ (if weak then ['W', '/'] else []) ++ (generate key body generated).toList
      ++ after.text = listed.spelled := by
    unfold Listed.spelled Tag.spelled
    cases weak <;> simp [listed, toList_generate, Tag.spelled, Tag.quoted, made]
  rw [hspelled] at htext
  obtain ⟨piece, hpiece, hnames⟩ :=
    (listed.exists_names_iff (made key body generated)).2 (.inr ⟨rfl, comma_not_mem_label⟩)
  unfold isNamed
  rw [List.any_eq_true]
  refine ⟨_, List.mem_filterMap.2 ⟨value, hvalue, htext⟩, List.any_eq_true.2 ⟨piece, ?_, ?_⟩⟩
  . rw [Text.splitOn_intercalate_eq_flatMap (by simp)]
    exact List.mem_flatMap.2 ⟨listed.spelled, by simp, hpiece⟩
  . rw [toList_generate]
    exact hnames

end

end EntityTag

section

variable {layer : Layer} {job : Job} {entry : Entry} {now : Time} {key : String} {body : Bytes}
  {generated : Time}

/--
A response made of an entry for a client that may have its body already: the tag is that of the entry, and
of what succeeded only the tag is sent again.
-/
structure Recognizes (job : Job) (entry : Entry) (response : Response) : Prop where
  tag_eq : ∃ tag, HeaderValue.ofString? entry.etag = some tag ∧ response.headers.getAll "etag" = [tag]
  short : entry.status.isSuccess = true → EntityTag.ListedBy job.request entry.etag →
    response.status = .notModified ∧ response.body = []
  whole : entry.status.isSuccess = false →
    ∃ secs, response = { entry.toResponse with headers := setMaxAge entry.toResponse.headers secs }

theorem not_isRevalidated_of_not_isSuccess (job : Job) (h : entry.status.isSuccess = false) :
    Layer.serve.isRevalidated job entry = false := by
  unfold Layer.serve.isRevalidated
  rw [h, Bool.false_and]

theorem recognizes_serve (hetag : entry.etag = EntityTag.generate key body generated) :
    Recognizes job entry (layer.serve job entry now) where
  tag_eq := by
    obtain ⟨tag, htag, -⟩ := EntityTag.ofString?_generate key body generated
    rw [← hetag] at htag
    exact ⟨tag, htag, Layer.getAll_etag_serve htag⟩
  short := by
    intro hsuccess hlisted
    apply Layer.serve_of_isRevalidated
    unfold Layer.serve.isRevalidated
    rw [hetag] at hlisted ⊢
    rw [hsuccess, EntityTag.isNamed_of_listedBy hlisted, Bool.true_and]
  whole := by
    intro hfailure
    have hnot := not_isRevalidated_of_not_isSuccess job hfailure
    unfold Layer.serve
    simp only [hnot, Bool.false_eq_true, if_false]
    exact ⟨_, rfl⟩

end

section

variable {σ : Type} [Backend σ] {layer : Layer} {c first : Cache σ} {i : Nat} {task : Task} {entry : Entry}
  {actions : List (Action σ)}

/--
A request that is a hit is answered from the entry that it found, once it takes its next step and unless its
client goes away. Nobody calls its handler.
-/
theorem answered_of_hit (hnot : i ∉ c.callers) (hget : c.tasks[i]? = some task) {key : String} {again : Bool}
    (hphase : task.phase = .deciding key (some entry) again)
    (hhit : decideRequest (some entry) layer.policy (Layer.directivesOf task.job) (c.now layer) = .hit)
    (hstep : .step i ∈ actions) (hcancel : .cancel i ∉ actions) :
    (∃ now, (c.play layer (.step i :: actions)).phase? i
        = some (.done (.response .hit (layer.serve task.job entry now))))
      ∧ i ∉ (c.play layer (.step i :: actions)).callers := by
  have hdecided : Transition layer c i task _ := .hit hphase hhit
  have hserving := getElem?_after_self hget (c.stay task (.serving entry) (deciding task key .hit again))
  rw [play_cons, act_step_of_eq_some (hdecided.step_eq hget)]
  constructor
  . obtain ⟨between, after, rfl, hbetween⟩ := List.eq_append_cons_of_mem hstep
    have hwaiting := getElem?_play_of_not_mem layer hserving hbetween fun hmem =>
      hcancel (List.mem_append_left _ hmem)
    have hdone := getElem?_after_self hwaiting
    rw [play_append, play_cons, act_step_of_eq_some (Transition.step_eq (.served rfl) hwaiting)]
    exact ⟨_, phase?_eq_some (getElem?_play_of_isFinished layer (hdone _) rfl after) rfl⟩
  . apply not_mem_callers_play_of_rank_lt _ hserving
    . show 2 < 6
      decide
    . rw [callers_after]
      simpa [stay, countP_deciding] using hnot

/--
A tag that was made for the body of an entry when it was written. The response to the request that wrote it
has this tag alone.
-/
def GivenOut (layer : Layer) (c : Cache σ) (entry : Entry) : Prop :=
  ∃ (j : Nat) (source : Job) (generated : Time) (tag : HeaderValue), c.jobs[j]? = some source
    ∧ entry.etag = EntityTag.generate (layer.tagKey source) entry.body generated
    ∧ HeaderValue.ofString? entry.etag = some tag
    ∧ ∀ {other : Task} {outcome : Outcome} {response : Response}, c.tasks[j]? = some other →
      other.phase = .done (.response outcome response) → response.headers.getAll "etag" = [tag]

theorem givenOut_of_reachable [Backend.Faithful σ] (hfirst : Traceable layer first)
    (hchronicled : Chronicled layer first) (hreach : Reachable layer Loses first c)
    (hget : c.tasks[i]? = some task) {key : String} {again : Bool}
    (hphase : task.phase = .deciding key (some entry) again) : GivenOut layer c entry := by
  have hjustified := (hreach.invariant hfirst Traceable.move).justified hget
  rw [hphase] at hjustified
  obtain ⟨j, source, written, success, horigin, rfl⟩ := hjustified.2.2 entry rfl
  obtain ⟨n, snapshot, generated, -, -, heq⟩ := horigin.answered
  have hetag : (kept σ written).etag
      = EntityTag.generate (layer.tagKey source) (kept σ written).body generated := by
    rw [kept_eq, heq]
    rfl
  obtain ⟨tag, htag, -⟩ := EntityTag.ofString?_generate (layer.tagKey source) (kept σ written).body generated
  rw [← hetag] at htag
  refine ⟨j, source, generated, tag, horigin.job_eq, hetag, htag, ?_⟩
  intro other outcome response hother hdone
  have hdocumented := (hreach.invariant hchronicled Chronicled.move).documented hother
  rw [hdone] at hdocumented
  have hmem : (written, success) ∈ c.writesOf j := by
    rw [mem_writesOf]
    exact ⟨key, layer.policy.maxTtl, horigin.trail_sublist.subset (by simp)⟩
  obtain ⟨hnil, -⟩ | ⟨-, -, only, stored, hone, -, rfl⟩ := hdocumented outcome response rfl
  . rw [hnil] at hmem
    nomatch hmem
  . rw [hone, List.mem_singleton] at hmem
    obtain ⟨rfl, rfl⟩ := Prod.mk.inj hmem
    have hsame : (kept σ written).etag = written.etag := by
      rw [kept_eq]
    exact Layer.getAll_etag_replay (hsame ▸ htag) success

omit [Backend σ] in
theorem Chronicled.getAll_etag_eq (hc : Chronicled layer c) (hget : c.tasks[i]? = some task)
    {outcome : Outcome} {response : Response} (hphase : task.phase = .done (.response outcome response))
    (hne : outcome ≠ .hit) :
    ∃ generated tag,
      HeaderValue.ofString? (EntityTag.generate (layer.tagKey task.job) response.body generated) = some tag
        ∧ response.headers.getAll "etag" = [tag] := by
  obtain ⟨reply, entry, tag, lifetime, hmade, htag, -, -, hecho⟩ := hc.handedOn hget hphase hne
  obtain ⟨snapshot, generated, hcapture, rfl⟩ := hmade.entry_eq
  have hbody : response.body = snapshot.body := by
    rw [hecho.body_eq, (Reply.capture_eq_ok_iff.1 hcapture).2]
  refine ⟨generated, tag, ?_, hecho.tag_eq⟩
  rw [hbody]
  exact htag

end

/--
The tags that a cache makes are recognized when they come back. Each can be sent and is read as it was made,
and all that is made of an entry with it has no other tag. Every response to a request whose handler was run
has just the tag that was made for its body. A request that is a hit on an entry with such a tag is answered
from the entry, with nobody calling the handler; if the client lists the tag it is not sent the body once
more, unless the entry is not that of a success. What is found in a store in memory or on a server has the
tag that the request was given that wrote it.
-/
theorem revalidation_of_reachable (layer : Layer) (clock systemTime : Time) :
    (∀ (key : String) (body : Bytes) (generated : Time), ∃ tag,
        HeaderValue.ofString? (EntityTag.generate key body generated) = some tag
          ∧ tag.text? = some (EntityTag.generate key body generated).toList
          ∧ ∀ entry : Entry, entry.etag = EntityTag.generate key body generated →
            (∀ stored, (layer.replay entry stored).headers.getAll "etag" = [tag])
              ∧ ∀ job now, (layer.serve job entry now).headers.getAll "etag" = [tag])
      ∧ (∀ {σ : Type} [Backend σ] {drift : σ → σ → Prop} {store : σ} {c : Cache σ} {i : Nat} {task : Task}
          {outcome : Outcome} {response : Response},
        Reachable layer drift (start store clock systemTime) c → c.tasks[i]? = some task →
        task.phase = .done (.response outcome response) → outcome ≠ .hit →
        ∃ generated tag,
          HeaderValue.ofString? (EntityTag.generate (layer.tagKey task.job) response.body generated) = some tag
            ∧ response.headers.getAll "etag" = [tag])
      ∧ (∀ {σ : Type} [Backend σ] {drift : σ → σ → Prop} {store : σ} {c : Cache σ} {i : Nat} {task : Task}
          {key name : String} {entry : Entry} {again : Bool} {body : Bytes} {generated : Time}
          {actions : List (Action σ)},
        Reachable layer drift (start store clock systemTime) c → c.tasks[i]? = some task →
        task.phase = .deciding key (some entry) again → entry.etag = EntityTag.generate name body generated →
        decideRequest (some entry) layer.policy (Layer.directivesOf task.job) (c.now layer) = .hit →
        .step i ∈ actions → .cancel i ∉ actions →
        ∃ response, (c.play layer (.step i :: actions)).phase? i = some (.done (.response .hit response))
          ∧ i ∉ (c.play layer (.step i :: actions)).callers ∧ Recognizes task.job entry response)
      ∧ (∀ {c : Cache (Unreliable MemoryStore)} {i : Nat} {task : Task} {key : String} {entry : Entry}
          {again : Bool},
        Reachable layer Loses (start (.working .empty) clock systemTime) c → c.tasks[i]? = some task →
        task.phase = .deciding key (some entry) again → GivenOut layer c entry)
      ∧ ∀ (keyspace : String) {c : Cache (Unreliable RedisStore)} {i : Nat} {task : Task} {key : String}
          {entry : Entry} {again : Bool},
        Reachable layer Loses (start (.working (.empty keyspace)) clock systemTime) c →
        c.tasks[i]? = some task → task.phase = .deciding key (some entry) again → GivenOut layer c entry := by
  refine ⟨?_, ?_, ?_, ?_, ?_⟩
  . intro key body generated
    obtain ⟨tag, htag, -⟩ := EntityTag.ofString?_generate key body generated
    refine ⟨tag, htag, EntityTag.text?_of_ofString?_generate htag, ?_⟩
    intro entry hetag
    rw [← hetag] at htag
    exact ⟨Layer.getAll_etag_replay htag, fun job now => Layer.getAll_etag_serve htag⟩
  . intro σ _ drift store c i task outcome response hreach hget hphase hne
    exact (hreach.invariant (.start store clock systemTime) Chronicled.move).getAll_etag_eq hget hphase hne
  . intro σ _ drift store c i task key name entry again body generated actions hreach hget hphase hetag hhit
      hstep hcancel
    have hnot : i ∉ c.callers := by
      obtain ⟨before, rfl⟩ := hreach.exists_play
      apply not_mem_callers_of_le_rank (List.not_mem_nil) hget
      unfold Task.rank
      rw [hphase]
      cases again <;> simp only [Phase.rank] <;> omega
    obtain ⟨⟨now, hdone⟩, hcallers⟩ := answered_of_hit hnot hget hphase hhit hstep hcancel
    exact ⟨_, hdone, hcallers, recognizes_serve hetag⟩
  . intro c i task key entry again hreach hget hphase
    exact givenOut_of_reachable (.start MemoryStore.not_holds_empty clock systemTime)
      (.start _ clock systemTime) hreach hget hphase
  . intro keyspace c i task key entry again hreach hget hphase
    exact givenOut_of_reachable (.start (RedisStore.not_holds_empty keyspace) clock systemTime)
      (.start _ clock systemTime) hreach hget hphase

/-- The entry that is made of a response without body at the beginning of time. -/
def firstEntry : Entry :=
  ⟨.ok, [], [], .epoch, EntityTag.generate "GET /" [] .epoch⟩

/-- A request of a client that lists the tag of the entry as a weak one between two other elements. -/
def returning : Job :=
  EntityTag.asking ("\"a,b\" , W/" ++ firstEntry.etag ++ "\t,x")

def answeredOnce {σ : Type} [Backend σ] (store : σ) : Cache σ :=
  ((start store .epoch .epoch).request (.sample false) (.sample 0 (.ok .empty))).1

/-- The cache when it is to decide on another request of the same client. -/
def returned {σ : Type} [Backend σ] (store : σ) : Cache σ :=
  ((answeredOnce store).enlist returning).1.play (.sample false) [.step 1, .step 1]

theorem reachable_returned {σ : Type} [Backend σ] (drift : σ → σ → Prop) (store : σ) :
    Reachable (.sample false) drift (start store .epoch .epoch) (returned store) := by
  have hstep (c : Cache σ) : Reachable (.sample false) drift c (c.act (.sample false) (.step 1)) :=
    c.reachable_act _ fun _ h => nomatch h
  exact (((Reachable.start.request _).enlist _).trans (hstep _)).trans (hstep _)

theorem job_returned {task : Task}
    (hget : (returned (Unreliable.working MemoryStore.empty)).tasks[1]? = some task) : task.job = returning := by
  have hlength : (answeredOnce (Unreliable.working MemoryStore.empty)).tasks.length = 1 := by
    decide +kernel
  have hnew : ((answeredOnce (Unreliable.working MemoryStore.empty)).enlist returning).1.tasks[1]?
      = some ⟨returning, (answeredOnce (Unreliable.working MemoryStore.empty)).systemTime, .arriving⟩ := by
    rw [← hlength]
    exact List.getElem?_concat_length
  exact job_eq_of_play hnew hget

def Task.found? (t : Task) : Option Entry :=
  match t.phase with
  | .deciding _ found _ => found
  | _ => none

theorem exists_of_found? {σ : Type} {c : Cache σ} {i : Nat} {entry : Entry}
    (h : (c.tasks[i]?).bind Task.found? = some entry) :
    ∃ task key again, c.tasks[i]? = some task ∧ task.phase = .deciding key (some entry) again := by
  obtain ⟨task, hget, hfound⟩ := Option.bind_eq_some_iff.1 h
  unfold Task.found? at hfound
  split at hfound
  next key found again hphase =>
    obtain rfl := hfound
    exact ⟨task, key, again, hget, hphase⟩
  next => nomatch hfound

def EntityTag.Blanks.tab : Blanks :=
  ⟨['\t'], List.forall_mem_singleton.2 (.inr rfl)⟩

theorem listedBy_returning : EntityTag.ListedBy returning.request firstEntry.etag := by
  have htexts : returning.request.headers.texts "if-none-match" = [List.intercalate [','] (["\"a,b\" ".toList]
      ++ ([' '] ++ ['W', '/'] ++ firstEntry.etag.toList ++ ['\t']) :: [['x']])] := by
    decide +kernel
  obtain ⟨value, hvalue, htext⟩ := List.mem_filterMap.1 (htexts ▸ List.mem_singleton_self _)
  exact ⟨value, hvalue, _, htext, _, _, .space, .tab, true, rfl⟩

/-- What the first request was given is recognized when the client comes back, and it is in both stores. -/
theorem revalidation_of_returned :
    (∃ tag, ((Layer.sample false).replay firstEntry true).headers.getAll "etag" = [tag])
      ∧ (∃ task response generated tag, (returned (Unreliable.working MemoryStore.empty)).tasks[0]? = some task
        ∧ task.phase = .done (.response .miss response)
        ∧ HeaderValue.ofString?
          (EntityTag.generate ((Layer.sample false).tagKey task.job) response.body generated) = some tag
        ∧ response.headers.getAll "etag" = [tag])
      ∧ (∃ response, ((returned (Unreliable.working MemoryStore.empty)).play (.sample false)
            [.step 1, .step 1]).phase? 1 = some (.done (.response .hit response))
          ∧ response.status = .notModified ∧ response.body = [])
      ∧ GivenOut (.sample false) (returned (Unreliable.working MemoryStore.empty)) firstEntry
      ∧ GivenOut (.sample false) (returned (Unreliable.working (RedisStore.empty "a"))) firstEntry := by
  obtain ⟨hmade, hon, hhit, hmemory, hredis⟩ := revalidation_of_reachable (.sample false) .epoch .epoch
  have hfound : ((returned (Unreliable.working MemoryStore.empty)).tasks[1]?).bind Task.found?
      = some firstEntry := by
    decide +kernel
  obtain ⟨task, key, again, hget, hphase⟩ := exists_of_found? hfound
  refine ⟨?_, ?_, ?_, ?_, ?_⟩
  . obtain ⟨tag, -, -, htag⟩ := hmade "GET /" [] .epoch
    exact ⟨tag, (htag firstEntry rfl).1 true⟩
  . have hmiss : ((returned (Unreliable.working MemoryStore.empty)).phase? 0).any
        (Phase.isStorableMiss (.sample false)) = true := by
      decide +kernel
    obtain ⟨response, hphase, -⟩ := exists_of_isStorableMiss hmiss
    obtain ⟨task, hget, hdone⟩ := Option.map_eq_some_iff.1 hphase
    obtain ⟨generated, tag, htag, hall⟩ := hon (reachable_returned (fun _ _ => True) _) hget hdone nofun
    exact ⟨task, response, generated, tag, hget, hdone, htag, hall⟩
  . have hjob := job_returned hget
    have hdecision : decideRequest (some firstEntry) (Layer.sample false).policy
        (Layer.directivesOf task.job) ((returned (Unreliable.working MemoryStore.empty)).now (.sample false))
          = .hit := by
      rw [hjob]
      decide +kernel
    obtain ⟨response, hdone, -, hrecognizes⟩ := hhit (reachable_returned (fun _ _ => True) _) hget hphase rfl
      hdecision (List.mem_singleton_self _) (by simp)
    rw [hjob] at hrecognizes
    exact ⟨response, hdone, hrecognizes.short rfl listedBy_returning⟩
  . exact hmemory (reachable_returned Loses _) hget hphase
  . have hfound : ((returned (Unreliable.working (RedisStore.empty "a"))).tasks[1]?).bind Task.found?
        = some firstEntry := by
      decide +kernel
    obtain ⟨task, key, again, hget, hphase⟩ := exists_of_found? hfound
    exact hredis "a" (reachable_returned Loses _) hget hphase

end ResponseCache
