import ResponseCache.Proofs.Layer.Fidelity
import ResponseCache.Proofs.Layer.Revalidation

/-!
This module contains how old the responses are that are answered from entries, and which lifetime they
are given. A lifetime is what the age of the entry leaves of the maximum of the route when the answer is
made. It is never stored: the fields of an entry are those that a handler answered.
-/

namespace ResponseCache

open Cache Backend.Faithful

theorem Plan.minSecs_le_maxSecs_of_build {σ : Type} {plan : Plan σ} {entropy : Entropy} {built : Built σ}
    (hbuild : plan.build entropy = .ok built) :
    built.layer.policy.minSecs ≤ built.layer.policy.maxSecs := by
  unfold build at hbuild
  split at hbuild
  next store hstore herrors =>
    obtain rfl := Except.ok.inj hbuild
    apply Age.minSecs_le_maxSecs
    exact (List.append_eq_nil_iff.1 herrors).2
  next => nomatch hbuild

/-- An entry all of whose fields the handler of a request answered when it was called, in the same words. -/
def HasFieldsOf {σ : Type} (c : Cache σ) (i : Nat) (job : Job) (entry : Entry) : Prop :=
  ∃ reply, Gave c i job reply ∧ ∀ field ∈ entry.headers, ∃ p ∈ reply.headers, field = (p.1.text, p.2.bytes)

theorem Made.hasFieldsOf {σ : Type} {layer : Layer} {c : Cache σ} {i : Nat} {job : Job} {reply : Reply}
    {entry : Entry} (h : Made layer c i job reply entry) : HasFieldsOf c i job entry := by
  obtain ⟨snapshot, generated, hcapture, rfl⟩ := h.entry_eq
  exact ⟨reply, h.gave, fun _ => Reply.mem_headers_of_capture hcapture⟩

section

variable {σ : Type} [Backend σ] {layer : Layer} {first c : Cache σ} {actions : List (Action σ)} {i : Nat}
  {task : Task} {e : Effect σ}

theorem hasFieldsOf_of_holds [Backend.Faithful σ] {store : σ} {clock systemTime : Time} {key : String}
    {entry : Entry} (hempty : ∀ key entry, ¬Holds store key entry)
    (hreach : Reachable layer Loses (start store clock systemTime) c) (hholds : Holds c.store key entry) :
    ∃ (j : Nat) (job : Job), c.jobs[j]? = some job ∧ HasFieldsOf c j job entry := by
  have htraceable := hreach.invariant (.start hempty clock systemTime) Traceable.move
  obtain ⟨j, job, written, success, horigin, rfl⟩ := htraceable.written hholds
  obtain ⟨reply, hmade⟩ := horigin.exists_made
  obtain ⟨reply, hgave, hfields⟩ := hmade.hasFieldsOf
  refine ⟨j, job, horigin.job_eq, reply, hgave, ?_⟩
  rw [kept_eq]
  exact hfields

/--
That a response was answered in a run from an entry which was young enough for the route and for the client
by the last decision on it. If the entry has no caching directives of its own, the response has a lifetime,
which is what was left of the maximum of the route when the answer was made.
-/
def ServedInTime (layer : Layer) (first : Cache σ) (actions : List (Action σ)) (i : Nat) (job : Job)
    (response : Response) : Prop :=
  ∃ entry before between after, ServedFrom layer first actions i job entry response before between after
    ∧ ((first.play layer before).now layer).secsSince entry.lastValid ≤ layer.policy.maxSecs
    ∧ (∀ limit ∈ (Layer.directivesOf job).maxAge,
        ((first.play layer before).now layer).secsSince entry.lastValid
          ≤ max (min limit layer.policy.maxSecs) layer.policy.minSecs)
    ∧ (entry.header? "cache-control" = none → ∃ age lifetime,
        age = ((first.play layer (before ++ .step i :: between)).now layer).secsSince entry.lastValid
          ∧ lifetime = layer.policy.maxSecs - age
          ∧ (age ≤ layer.policy.maxSecs → age + lifetime = layer.policy.maxSecs)
          ∧ response.headers.getAll "cache-control" = [.maxAge lifetime])

theorem servedInTime_of_servedFrom {job : Job} {entry : Entry} {response : Response}
    {before between after : List (Action σ)} (hle : layer.policy.minSecs ≤ layer.policy.maxSecs)
    (h : ServedFrom layer first actions i job entry response before between after) :
    ServedInTime layer first actions i job response := by
  obtain ⟨hage, hlimit⟩ := secsSince_le_of_decideRequest_eq_hit hle h.decision_eq
  refine ⟨entry, before, between, after, h, hage, hlimit, ?_⟩
  intro hheader
  refine ⟨_, _, rfl, rfl, Nat.add_sub_cancel', ?_⟩
  rw [h.response_eq, ← Freshness.remaining_evaluate_none hle]
  apply Layer.getAll_cacheControl_serve_of_nil
  exact Entry.getAll_fields_of_header?_eq_none .cacheControl hheader

/--
In a cache that was built, whatever is answered from an entry is served in time. No lifetime is ever
stored: the fields of the entries that are given to the store, and of all entries in a store that was
empty at first, are those that a handler answered when it was called.
-/
theorem lifetime_of_play {plan : Plan σ} {entropy : Entropy} {built : Built σ}
    (hbuild : plan.build entropy = .ok built) (clock systemTime : Time) :
    (∀ {actions : List (Action σ)} {i : Nat} {task : Task} {response : Response},
        ((start built.store clock systemTime).play built.layer actions).tasks[i]? = some task →
        task.phase = .done (.response .hit response) →
        ServedInTime built.layer (start built.store clock systemTime) actions i task.job response)
      ∧ (∀ {actions : List (Action σ)} {i : Nat} {task : Task} {key : String} {guard : Option Guard}
          {entry : Entry},
        ((start built.store clock systemTime).play built.layer actions).tasks[i]? = some task →
        task.phase = .writing key guard entry →
        HasFieldsOf ((start built.store clock systemTime).play built.layer actions) i task.job entry)
      ∧ ∀ [Backend.Faithful σ], (∀ key entry, ¬Holds built.store key entry) →
        ∀ {c : Cache σ} {key : String} {entry : Entry},
          Reachable built.layer Loses (start built.store clock systemTime) c →
          Holds c.store key entry →
          ∃ (j : Nat) (job : Job), c.jobs[j]? = some job ∧ HasFieldsOf c j job entry := by
  have hle := Plan.minSecs_le_maxSecs_of_build hbuild
  refine ⟨?_, ?_, ?_⟩
  . intro actions i task response hget hphase
    obtain ⟨entry, before, between, after, hserved⟩ := exists_servedFrom rfl hget hphase
    exact servedInTime_of_servedFrom hle hserved
  . intro actions i task key guard entry hget hphase
    have hchronicled := ((start built.store clock systemTime).reachable_play built.layer actions).invariant
      (Chronicled.start built.store clock systemTime) Chronicled.move
    have hwriting := hchronicled.documented hget
    rw [hphase] at hwriting
    obtain ⟨-, reply, hmade⟩ := hwriting
    exact hmade.hasFieldsOf
  . intro _ hempty c key entry hreach hholds
    exact hasFieldsOf_of_holds hempty hreach hholds

end

def Age.minute : Age :=
  ⟨.zero, (Layer.sample false).policy.maxTtl⟩

def Plan.minute {σ : Type} (store : σ) : Plan σ :=
  { Plan.ofAge store .minute with clock := .manual }

theorem Plan.build_ofAge {σ : Type} (store : σ) {age : Age} (herrors : age.errors = [])
    (hwarnings : age.warnings = []) (entropy : Entropy) :
    ({ Plan.ofAge store age with clock := .manual } : Plan σ).build entropy
      = .ok ⟨{ Layer.sample false with policy := age.policy, entropy := entropy }, store, []⟩ := by
  have herrors : ({ Plan.ofAge store age with clock := .manual } : Plan σ).errors = [] := herrors
  have hwarnings : ({ Plan.ofAge store age with clock := .manual } : Plan σ).age.warnings = [] := hwarnings
  unfold build
  rw [herrors, hwarnings]
  rfl

theorem Plan.build_minute {σ : Type} (store : σ) :
    (Plan.minute store).build ⟨fun _ => "", fun _ => 0⟩ = .ok ⟨.sample false, store, []⟩ := by
  have hbuild := build_ofAge store (by decide : Age.minute.errors = []) (by decide) ⟨fun _ => "", fun _ => 0⟩
  have hpolicy : Age.minute.policy = (Layer.sample false).policy := by decide
  rw [hpolicy] at hbuild
  exact hbuild

/-- The first of two requests for the same writes an entry without lifetime, the second is served it. -/
theorem lifetime_of_twoRequests :
    (∃ actions task response,
        ((start (Unreliable.working MemoryStore.empty) .epoch .epoch).play (.sample false)
          actions).tasks[1]? = some task
        ∧ task.phase = .done (.response .hit response)
        ∧ ServedInTime (.sample false) (start (Unreliable.working MemoryStore.empty) .epoch .epoch)
          actions 1 task.job response)
      ∧ (∃ actions task key guard entry,
        ((start (Unreliable.working MemoryStore.empty) .epoch .epoch).play (.sample false)
          actions).tasks[0]? = some task
        ∧ task.phase = .writing key guard entry
        ∧ HasFieldsOf ((start (Unreliable.working MemoryStore.empty) .epoch .epoch).play (.sample false)
          actions) 0 task.job entry)
      ∧ ∃ key entry, Holds (twoRequests (Unreliable.working MemoryStore.empty)).store key entry
        ∧ ∃ (j : Nat) (job : Job),
          (twoRequests (Unreliable.working MemoryStore.empty)).jobs[j]? = some job
            ∧ HasFieldsOf (twoRequests (Unreliable.working MemoryStore.empty)) j job entry := by
  obtain ⟨hserved, hwriting, hholding⟩ := lifetime_of_play
    (Plan.build_minute (Unreliable.working MemoryStore.empty)) .epoch .epoch
  have hreach := reachable_twoRequests Loses (Unreliable.working MemoryStore.empty)
  refine ⟨?_, ?_, ?_⟩
  . have hhit : ((twoRequests (Unreliable.working MemoryStore.empty)).tasks[1]?.bind
        Task.hit?).isSome = true := by
      decide +kernel
    obtain ⟨task, response, hget, hphase⟩ := exists_of_isSome_hit? hhit
    obtain ⟨actions, heq⟩ := hreach.exists_play
    rw [heq] at hget
    exact ⟨actions, task, response, hget, hphase, hserved hget hphase⟩
  . -- The first request after six steps.
    have hwrites : (((start (Unreliable.working MemoryStore.empty) .epoch .epoch).play (.sample false)
        (.enlist (.sample 0 (.ok .empty)) :: List.replicate 6 (.step 0))).phase? 0).any
          Phase.isWriting = true := by
      decide +kernel
    obtain ⟨key, guard, entry, hwritten⟩ := exists_of_isWriting hwrites
    obtain ⟨task, hget, hphase⟩ := Option.map_eq_some_iff.1 hwritten
    exact ⟨_, task, key, guard, entry, hget, hphase, hwriting hget hphase⟩
  . have hsome : ((twoRequests (Unreliable.working MemoryStore.empty)).store.store.table.get?
        "GET /").isSome = true := by
      decide +kernel
    obtain ⟨⟨entry, expiresAt⟩, hstored⟩ := Option.isSome_iff_exists.1 hsome
    have hholds : Holds (twoRequests (Unreliable.working MemoryStore.empty)).store "GET /" entry :=
      ⟨expiresAt, hstored⟩
    exact ⟨"GET /", entry, hholds, hholding MemoryStore.not_holds_empty hreach hholds⟩

end ResponseCache
