import ResponseCache.Proofs.Layer.Overflow
import ResponseCache.Proofs.Layer.Storing

/-!
This module contains that what has been stored is served. As long as nothing else is written under its key,
whoever asks for the same later on is answered from the entry, without a call of a handler.
-/

namespace ResponseCache

open Cache Backend.Legible

def Action.isStepOf {σ : Type} (i : Nat) : Action σ → Bool
  | step j => j = i
  | _ => false

section

variable {σ : Type} {layer : Layer} {c : Cache σ} {i : Nat} {task : Task} {e : Effect σ} {action : Action σ}
  {actions : List (Action σ)} {key : String} {entry : Entry} {expiry : Option Time}

variable [Backend σ] [Backend.Legible σ]

namespace Cache

/--
Whether an action leaves a store to itself, as for what is under a key until a time: nothing is written under
the key, and of itself the store changes under other keys only.
-/
def Preserves (c : Cache σ) (layer : Layer) (key : String) (expiry : Option Time) : Action σ → Prop
  | .step i => (∀ time ∈ expiry, ¬time ≤ c.systemTime)
    ∧ ∀ guard entry, c.phase? i = some (.writing key guard entry) →
      (Backend.set c.store c.systemTime key entry layer.policy.maxTtl).result ≠ .ok ()
  | .change f => under? (f c.store) key = under? c.store key ∧ (Works c.store → Works (f c.store))
  | _ => True

def Preserving (layer : Layer) (key : String) (expiry : Option Time) : Cache σ → List (Action σ) → Prop
  | _, [] => True
  | c, action :: actions =>
    c.Preserves layer key expiry action ∧ Preserving layer key expiry (c.act layer action) actions

theorem preserving_append {others : List (Action σ)} :
    c.Preserving layer key expiry (actions ++ others)
      ↔ c.Preserving layer key expiry actions ∧ (c.play layer actions).Preserving layer key expiry others := by
  induction actions generalizing c with
  | nil => exact (true_and _).symm.to_iff
  | cons action actions ih =>
    rw [List.cons_append, play_cons, Preserving, Preserving, ih, and_assoc]

end Cache

theorem preserving_replicate {n : Nat}
    (hstep : ∀ k < n, (c.play layer (List.replicate k (.step i))).Preserves layer key expiry (.step i)) :
    c.Preserving layer key expiry (List.replicate n (.step i)) := by
  induction n generalizing c with
  | zero => trivial
  | succ n ih => exact ⟨hstep 0 (Nat.succ_pos n), ih fun k hk => hstep (k + 1) (Nat.succ_lt_succ hk)⟩

/-- That an entry is under a key until a time, in a store that works, and nobody is about to discard it. -/
structure Shelved (key : String) (entry : Entry) (expiry : Option Time) (c : Cache σ) : Prop where
  works : Works c.store
  under?_eq : under? c.store key = some (entry, expiry)
  ne_discarding : ∀ {i : Nat} {task : Task}, c.tasks[i]? = some task →
    ∀ again, task.phase ≠ .discarding key again

namespace Shelved

theorem look_result (hc : Shelved key entry expiry c) (hlives : ∀ time ∈ expiry, ¬time ≤ c.systemTime) :
    (Backend.look c.store c.systemTime key).result = .ok (.live entry) :=
  Backend.Legible.look_result hc.works hc.under?_eq hlives

theorem store_of_transition (hc : Shelved key entry expiry c) (hget : c.tasks[i]? = some task)
    (h : Transition layer c i task e) (hpreserves : c.Preserves layer key expiry (.step i)) :
    Works e.store ∧ under? e.store key = some (entry, expiry) := by
  have hfailed {other : String} {guard : Option Guard} {written : Entry}
      (hphase : task.phase = .writing other guard written) :
      key ≠ other ∨ (Backend.set c.store c.systemTime other written layer.policy.maxTtl).result ≠ .ok () := by
    by_cases heq : key = other
    . subst heq
      exact .inr (hpreserves.2 guard written (phase?_eq_some hget hphase))
    . exact .inl heq
  cases h with
  | foundExpired | looked | lookFailed =>
    simp only [look_store]
    exact ⟨hc.works, hc.under?_eq⟩
  | discarded hphase =>
    refine ⟨works_discard _ hc.works, (under?_discard _ ?_).trans hc.under?_eq⟩
    rintro rfl
    exact hc.ne_discarding hget _ hphase
  | wrote hphase | writeFailed hphase | writeAborted hphase =>
    exact ⟨works_set _ _ _ _ hc.works, (under?_set (hfailed hphase)).trans hc.under?_eq⟩
  | _ => exact ⟨hc.works, hc.under?_eq⟩

theorem ne_discarding_of_transition (hc : Shelved key entry expiry c) (h : Transition layer c i task e)
    (hlives : ∀ time ∈ expiry, ¬time ≤ c.systemTime) (again : Bool) : e.phase ≠ .discarding key again := by
  intro hdiscarding
  cases h with
  | foundExpired hphase hresult =>
    -- A look under the key finds the entry alive.
    obtain ⟨rfl, -⟩ := Phase.discarding.inj hdiscarding
    nomatch (hc.look_result hlives).symm.trans hresult
  | refused | failed | unstorable | wrote | writeFailed | writeAborted =>
    exact Phase.finish_ne rfl _ _ hdiscarding
  | _ => nomatch hdiscarding

theorem act (hc : Shelved key entry expiry c) (hpreserves : c.Preserves layer key expiry action) :
    Shelved key entry expiry (c.act layer action) := by
  have hstore : Works (c.act layer action).store
      ∧ under? (c.act layer action).store key = some (entry, expiry) := by
    cases action with
    | step k =>
      cases hstep : c.step layer k with
      | none =>
        rw [act_step_of_eq_none hstep]
        exact ⟨hc.works, hc.under?_eq⟩
      | some c' =>
        obtain ⟨task, e, hget, h, rfl⟩ := Transition.of_step hstep
        rw [act_step_of_eq_some hstep]
        exact hc.store_of_transition hget h hpreserves
    | cancel k =>
      have hsame : (c.act layer (.cancel k)).store = c.store := store_cancel c k
      rw [hsame]
      exact ⟨hc.works, hc.under?_eq⟩
    | change f => exact ⟨hpreserves.2 hc.works, hpreserves.1.trans hc.under?_eq⟩
    | enlist | clock | systemTime => exact ⟨hc.works, hc.under?_eq⟩
  refine ⟨hstore.1, hstore.2, ?_⟩
  intro k other hother again hdiscarding
  obtain ⟨old, hold, -, hsame | ⟨e, rfl, h, -, hnew⟩⟩ :=
    act_entered (Q := fun phase => phase = .discarding key again) nofun nofun hother hdiscarding
  . exact hc.ne_discarding hold again hsame
  . exact hc.ne_discarding_of_transition h hpreserves.1 again hnew

theorem play (hc : Shelved key entry expiry c) (hpreserving : c.Preserving layer key expiry actions) :
    Shelved key entry expiry (c.play layer actions) := by
  induction actions generalizing c with
  | nil => exact hc
  | cons action actions ih => exact ih (hc.act hpreserving.1) hpreserving.2

end Shelved

/-- The way of a request that is answered from an entry, with the number of the steps that are left to it. -/
inductive Visiting (layer : Layer) (job : Job) (key : String) (entry : Entry) (during : Time → Prop) :
    Nat → Phase → Prop where
  | arriving : Visiting layer job key entry during 4 .arriving
  | reading : Visiting layer job key entry during 3 (.reading key false)
  | deciding : Visiting layer job key entry during 2 (.deciding key (some entry) false)
  | serving : Visiting layer job key entry during 1 (.serving entry)
  | served {now : Time} (hnow : during now) :
    Visiting layer job key entry during 0 (.done (.response .hit (layer.serve job entry now)))

theorem Visiting.isReady {job : Job} {during : Time → Prop} {n : Nat} {phase : Phase}
    (h : Visiting layer job key entry during (n + 1) phase) : phase.isReady = true := by
  cases h <;> rfl

omit [Backend.Legible σ] in
theorem Visiting.after_transition {during : Time → Prop} {n : Nat} (h : Transition layer c i task e)
    (hvisiting : Visiting layer task.job key entry during (n + 1) task.phase)
    (hkey : layer.keyOf task.job = some key) (hready : task.job.handler.unready = none)
    (hlook : (Backend.look c.store c.systemTime key).result = .ok (.live entry))
    (hhit : task.phase = .deciding key (some entry) false →
      decideRequest (some entry) layer.policy (Layer.directivesOf task.job) (c.now layer) = .hit)
    (hduring : during (c.now layer)) :
    Visiting layer task.job key entry during n e.phase ∧ e.records.countP Record.isCall = 0 := by
  cases h with
  | unready hphase hunready => nomatch hready.symm.trans hunready
  | keyless hphase _ hnone => nomatch hkey.symm.trans hnone
  | keyed hphase _ hsome =>
    rw [hphase] at hvisiting
    obtain rfl := Option.some.inj (hkey.symm.trans hsome)
    cases hvisiting
    exact ⟨.reading, rfl⟩
  | foundExpired hphase hresult =>
    rw [hphase] at hvisiting
    cases hvisiting
    nomatch hlook.symm.trans hresult
  | lookFailed hphase hresult =>
    rw [hphase] at hvisiting
    cases hvisiting
    nomatch hlook.symm.trans hresult
  | looked hphase hresult =>
    rw [hphase] at hvisiting
    cases hvisiting
    obtain rfl := Except.ok.inj (hlook.symm.trans hresult)
    exact ⟨.deciding, countP_records _ _⟩
  | hit hphase =>
    rw [hphase] at hvisiting
    cases hvisiting
    exact ⟨.serving, rfl⟩
  | missedAgain hphase =>
    rw [hphase] at hvisiting
    nomatch hvisiting
  | missed hphase hdecision =>
    rw [hphase] at hvisiting
    cases hvisiting
    nomatch (hhit hphase).symm.trans hdecision
  | unguarded hphase hdecision hne =>
    rw [hphase] at hvisiting
    cases hvisiting
    exact absurd (hdecision.symm.trans (hhit hphase)) hne
  | served hphase =>
    rw [hphase] at hvisiting
    cases hvisiting
    exact ⟨.served hduring, countP_reporting _ _ _ _⟩
  | _ =>
    rw [‹task.phase = _›] at hvisiting
    nomatch hvisiting

/--
That a request is on its way to be answered from the entry under a key, with so many steps left to it, or has
gone away. Its handler has not been called.
-/
structure Visited (layer : Layer) (job : Job) (key : String) (entry : Entry) (expiry : Option Time)
    (during : Time → Prop) (i left : Nat) (c : Cache σ) : Prop where
  shelved : Shelved key entry expiry c
  not_mem_callers : i ∉ c.callers
  exists_task : ∃ task, c.tasks[i]? = some task ∧ task.job = job
    ∧ (task.phase = .cancelled ∨ Visiting layer job key entry during left task.phase)

namespace Visited

variable {job : Job} {during : Time → Prop} {left : Nat}

theorem step (hc : Visited layer job key entry expiry during i left c)
    (hpreserves : c.Preserves layer key expiry (.step i)) (hkey : layer.keyOf job = some key)
    (hready : job.handler.unready = none)
    (hhit : c.phase? i = some (.deciding key (some entry) false) →
      decideRequest (some entry) layer.policy (Layer.directivesOf job) (c.now layer) = .hit)
    (hduring : during (c.now layer)) :
    Visited layer job key entry expiry during i (left - 1) (c.act layer (.step i)) := by
  have hshelved := hc.shelved.act hpreserves
  obtain ⟨task, hget, rfl, hphase⟩ := hc.exists_task
  cases hstep : c.step layer i with
  | none =>
    rw [act_step_of_eq_none hstep] at hshelved ⊢
    refine ⟨hshelved, hc.not_mem_callers, task, hget, rfl, hphase.imp_right ?_⟩
    -- Nothing ever keeps the request from its next step, unless it is finished.
    intro hvisiting
    cases left with
    | zero => exact hvisiting
    | succ n =>
      obtain ⟨e, -, hsome⟩ := exists_transition_of_isReady layer hget hvisiting.isReady
      nomatch hstep.symm.trans hsome
  | some c' =>
    obtain ⟨e, h, rfl⟩ := exists_transition_of_step hget hstep
    have hvisiting := hphase.resolve_left h.phase_ne_cancelled
    cases left with
    | zero =>
      generalize hdone : task.phase = phase at hvisiting
      cases hvisiting
      exact absurd hdone (h.phase_ne_done _)
    | succ n =>
      have hlook := hc.shelved.look_result hpreserves.1
      obtain ⟨hnext, hcalls⟩ := hvisiting.after_transition h hkey hready hlook
        (fun hdeciding => hhit (phase?_eq_some hget hdeciding)) hduring
      rw [act_step_of_eq_some hstep] at hshelved ⊢
      refine ⟨hshelved, ?_, _, getElem?_after_self hget e, rfl, .inr hnext⟩
      rw [callers_after, hcalls, List.replicate_zero, List.append_nil]
      exact hc.not_mem_callers

theorem act_of_ne (hc : Visited layer job key entry expiry during i left c)
    (hpreserves : c.Preserves layer key expiry action) (hne : action ≠ .step i) :
    Visited layer job key entry expiry during i left (c.act layer action) := by
  obtain ⟨task, hget, hjob, hphase⟩ := hc.exists_task
  obtain ⟨task', hget', hjob', hsame⟩ := exists_getElem?_act layer hget action
  refine ⟨hc.shelved.act hpreserves, ?_, task', hget', hjob'.trans hjob, ?_⟩
  . intro hmem
    obtain ⟨note, hnote, rfl⟩ := List.mem_map.1 hmem
    obtain ⟨hhistory, hcall⟩ := List.mem_filter.1 hnote
    obtain hold | ⟨-, -, hstep, -⟩ := mem_history_act hhistory
    . exact hc.not_mem_callers (List.mem_map_of_mem (List.mem_filter.2 ⟨hold, hcall⟩))
    . exact hne hstep
  . obtain hsame | hcancelled | ⟨-, hstep, -⟩ := hsame
    . rw [hsame]
      exact hphase
    . exact .inl hcancelled
    . exact absurd hstep hne

theorem play (hc : Visited layer job key entry expiry during i left c)
    (hpreserving : c.Preserving layer key expiry actions) (hkey : layer.keyOf job = some key)
    (hready : job.handler.unready = none)
    (hhit : ∀ part, part <+: actions →
      (c.play layer part).phase? i = some (.deciding key (some entry) false) →
      decideRequest (some entry) layer.policy (Layer.directivesOf job) ((c.play layer part).now layer) = .hit)
    (hduring : ∀ part, part ++ [.step i] <+: actions → during ((c.play layer part).now layer)) :
    Visited layer job key entry expiry during i (left - actions.countP (Action.isStepOf i))
      (c.play layer actions) := by
  induction actions generalizing c left with
  | nil => exact hc
  | cons action actions ih =>
    obtain ⟨hnow, hlater⟩ := hpreserving
    have hhit' (part : List (Action σ)) (hpart : part <+: actions) :=
      hhit (action :: part) ((List.prefix_cons_inj action).2 hpart)
    have hduring' (part : List (Action σ)) (hpart : part ++ [.step i] <+: actions) :=
      hduring (action :: part) ((List.prefix_cons_inj action).2 hpart)
    rw [play_cons, List.countP_cons]
    by_cases heq : action = .step i
    . subst heq
      have hstep := hc.step hnow hkey hready (hhit [] List.nil_prefix) (hduring [] ⟨actions, rfl⟩)
      have hcount : Action.isStepOf i (.step i : Action σ) = true := decide_eq_true rfl
      rw [if_pos hcount, Nat.add_comm, ← Nat.sub_sub]
      exact ih hstep hlater hhit' hduring'
    . have hcount : ¬action.isStepOf i = true := by
        intro hstep
        cases action with
        | step k => exact heq (congrArg Action.step (of_decide_eq_true hstep))
        | _ => nomatch hstep
      rw [if_neg hcount, Nat.add_zero]
      exact ih (hc.act_of_ne hnow heq) hlater hhit' hduring'

end Visited

/--
That whoever asks for what is under a key later on is answered from an entry, as long as nothing else is
written there. Unless its client goes away, that takes four steps of its own, and its handler is not called.
-/
def AnsweredFrom (layer : Layer) (c : Cache σ) (key : String) (entry : Entry) (expiry : Option Time) : Prop :=
  ∀ (between after : List (Action σ)) (visitor : Job),
    c.Preserving layer key expiry (between ++ .enlist visitor :: after) →
    layer.keyOf visitor = some key → visitor.handler.unready = none →
    let i := (c.play layer between).tasks.length
    let entered := ((c.play layer between).enlist visitor).1
    (∀ part, part <+: after → (entered.play layer part).phase? i = some (.deciding key (some entry) false) →
      decideRequest (some entry) layer.policy (Layer.directivesOf visitor) ((entered.play layer part).now layer)
        = .hit) →
    i ∉ (entered.play layer after).callers
      ∧ (4 ≤ after.countP (Action.isStepOf i) → (entered.play layer after).phase? i = some .cancelled
        ∨ ∃ part, part ++ [.step i] <+: after ∧ (entered.play layer after).phase? i
          = some (.done (.response .hit (layer.serve visitor entry ((entered.play layer part).now layer)))))

theorem Shelved.answeredFrom (hc : Shelved key entry expiry c) (hchronicled : Chronicled layer c) :
    AnsweredFrom layer c key entry expiry := by
  intro between after visitor hpreserving hkey hready i entered hhit
  obtain ⟨hbetween, -, hafter⟩ := preserving_append.1 hpreserving
  have hmiddle := hc.play hbetween
  have hnew : i ∉ (c.play layer between).callers := by
    intro hmem
    obtain ⟨note, hnote, hnumber⟩ := List.mem_map.1 hmem
    have hlt := ((c.reachable_play layer between).invariant hchronicled Chronicled.move).task_lt
      (List.mem_of_mem_filter hnote)
    exact Nat.lt_irrefl _ (hnumber ▸ hlt)
  have henlisted : (c.play layer between).Preserves layer key expiry (.enlist visitor) := trivial
  have hentered : Visited layer visitor key entry expiry
      (fun now => ∃ part, part ++ [.step i] <+: after ∧ now = (entered.play layer part).now layer) i 4
      entered :=
    ⟨hmiddle.act henlisted, hnew, _, List.getElem?_concat_length, rfl, .inr .arriving⟩
  have hlast := hentered.play hafter hkey hready hhit fun part hpart => ⟨part, hpart, rfl⟩
  refine ⟨hlast.not_mem_callers, ?_⟩
  intro hsteps
  obtain ⟨task, hget, -, hcancelled | hvisiting⟩ := hlast.exists_task
  . exact .inl (phase?_eq_some hget hcancelled)
  . rw [Nat.sub_eq_zero_of_le hsteps] at hvisiting
    generalize hdone : task.phase = phase at hvisiting
    cases hvisiting with
    | served hnow =>
      obtain ⟨part, hpart, rfl⟩ := hnow
      exact .inr ⟨part, hpart, phase?_eq_some hget hdone⟩

omit [Backend.Legible σ] in
/-- Steps take no time. -/
theorem clocks_play_of_steps (hsteps : ∀ action ∈ actions, action = .step i) :
    (c.play layer actions).clock = c.clock ∧ (c.play layer actions).systemTime = c.systemTime := by
  induction actions generalizing c with
  | nil => exact ⟨rfl, rfl⟩
  | cons action actions ih =>
    obtain ⟨rfl, hlater⟩ := List.forall_mem_cons.1 hsteps
    obtain ⟨hclock, htime⟩ := ih (c := c.act layer (.step i)) hlater
    rw [play_cons, hclock, htime]
    cases hstep : c.step layer i with
    | none =>
      rw [act_step_of_eq_none hstep]
      exact ⟨rfl, rfl⟩
    | some c' =>
      obtain ⟨task, e, -, -, rfl⟩ := Transition.of_step hstep
      rw [act_step_of_eq_some hstep]
      exact ⟨rfl, rfl⟩

/-- Whoever asks right after that is answered from the entry, as long as it is to be served. -/
theorem AnsweredFrom.next (hanswered : AnsweredFrom layer c key entry expiry) (visitor : Job)
    (hlives : ∀ time ∈ expiry, ¬time ≤ c.systemTime) (hkey : layer.keyOf visitor = some key)
    (hready : visitor.handler.unready = none)
    (hhit : decideRequest (some entry) layer.policy (Layer.directivesOf visitor) (c.now layer) = .hit)
    (hidle : ∀ n < 4, (((c.enlist visitor).1.play layer (List.replicate n (.step c.tasks.length))).phase?
      c.tasks.length).any Phase.isWriting = false) :
    let last := (c.enlist visitor).1.play layer (List.replicate 4 (.step c.tasks.length))
    c.tasks.length ∉ last.callers
      ∧ (last.phase? c.tasks.length = some .cancelled
        ∨ last.phase? c.tasks.length
          = some (.done (.response .hit (layer.serve visitor entry (c.now layer))))) := by
  have hnow {part : List (Action σ)} (hpart : part <+: List.replicate 4 (.step c.tasks.length)) :
      ((c.enlist visitor).1.play layer part).now layer = c.now layer := by
    have hsteps (action : Action σ) (hmem : action ∈ part) : action = .step c.tasks.length :=
      List.eq_of_mem_replicate (hpart.subset hmem)
    unfold now
    rw [(clocks_play_of_steps hsteps).1, (clocks_play_of_steps hsteps).2]
    rfl
  have hpreserving : (c.enlist visitor).1.Preserving layer key expiry
      (List.replicate 4 (.step c.tasks.length)) := by
    apply preserving_replicate
    intro k hk
    refine ⟨?_, ?_⟩
    . rw [(clocks_play_of_steps fun _ => List.eq_of_mem_replicate).2]
      exact hlives
    . intro guard written hwriting
      nomatch (congrArg (Option.any Phase.isWriting) hwriting).symm.trans (hidle k hk)
  obtain ⟨hcallers, hends⟩ := hanswered [] (List.replicate 4 (.step c.tasks.length)) visitor
    ⟨trivial, hpreserving⟩ hkey hready fun part hpart _ => (congrArg _ (hnow hpart)).trans hhit
  refine ⟨hcallers, ?_⟩
  have hsteps :
      (List.replicate 4 (.step c.tasks.length : Action σ)).countP (Action.isStepOf c.tasks.length) = 4 := by
    rw [List.countP_replicate]
    exact if_pos (decide_eq_true rfl)
  obtain hgone | ⟨part, hpart, hdone⟩ := hends (Nat.le_of_eq hsteps.symm)
  . exact .inl hgone
  . refine .inr ?_
    rw [← hnow ((List.prefix_append _ _).trans hpart)]
    exact hdone

/--
In a cache that was built, the store is never asked to keep an entry for no time at all. If it is told of a
request that missed, with nothing else going on, that its response was stored, then the store has just the
entry that was served under its key. Whoever asks for the same later on is answered from it.
-/
theorem retention_of_build {plan : Plan σ} {entropy : Entropy} {built : Built σ}
    (hbuild : plan.build entropy = .ok built) (clock systemTime : Time) (actions : List (Action σ)) :
    let layer := built.layer
    let before := (start built.store clock systemTime).play layer actions
    (∀ {i : Nat} {now : Time} {key : String} {entry : Entry} {ttl : Duration},
        .set now key entry ttl ∈ (start built.store clock systemTime).storeCalls layer i actions →
        ttl.isZero = false)
      ∧ ∀ (job : Job) (own : List (Action σ)) {record : Record} {response : Response},
        let i := before.tasks.length
        let first := (before.enlist job).1
        let last := first.play layer own
        (∀ action ∈ own, action.isOf i = true) →
        (∀ part, part <+: own → Keeps σ ((first.play layer part).now layer)) →
        last.phase? i = some (.done (.response .miss response)) →
        ⟨i, record⟩ ∈ last.history → record.tellsOfStore = true →
        ∃ key entry expiry, layer.keyOf job = some key ∧ response = layer.replay entry true
          ∧ under? last.store key = some (entry, expiry)
          ∧ (∀ time ∈ expiry, ∃ part, part <+: own
            ∧ (first.play layer part).systemTime.add? layer.policy.maxTtl = some time)
          ∧ (Works last.store → (∀ task ∈ last.tasks, ∀ again, task.phase ≠ .discarding key again) →
            AnsweredFrom layer last key entry expiry) := by
  intro layer before
  have hle := Plan.minSecs_le_maxSecs_of_build hbuild
  refine ⟨fun hmem => isZero_of_mem_storeCalls (arriving_of_eq_nil rfl _) hle hmem, ?_⟩
  intro job own record response i first last hown hkeeps hphase hmem htells
  have hchronicled : Chronicled layer before :=
    (reachable_play _ layer actions).invariant (.start built.store clock systemTime) Chronicled.move
  have hlast : Chronicled layer last :=
    (first.reachable_play layer own).invariant (hchronicled.enlist job) Chronicled.move
  have hfirst : first.tasks[i]? = some ⟨job, before.systemTime, .arriving⟩ := List.getElem?_concat_length
  have hnew (note : Note) (hnote : note ∈ first.history) : note.task ≠ i :=
    Nat.ne_of_lt (hchronicled.task_lt hnote)
  obtain ⟨key, entry, expiry, hkey, hresponse, hunder, hexpiry⟩ :=
    under?_of_tellsOfStore hfirst hnew hle hown hkeeps hphase hmem htells
  refine ⟨key, entry, expiry, hkey, hresponse, hunder, hexpiry, fun hworks hdiscarding => ?_⟩
  have hshelved : Shelved key entry expiry last :=
    ⟨hworks, hunder, fun hget => hdiscarding _ (List.mem_of_getElem? hget)⟩
  exact hshelved.answeredFrom hlast

end

def Age.moment : Age :=
  ⟨⟨500000000, by decide⟩, ⟨1500000000, by decide⟩⟩

def Layer.sampleOfMoment : Layer :=
  { Layer.sample false with policy := Age.moment.policy }

def Plan.moment {σ : Type} (store : σ) : Plan σ :=
  { Plan.ofAge store .moment with clock := .manual }

theorem Plan.build_moment {σ : Type} (store : σ) :
    (Plan.moment store).build ⟨fun _ => "", fun _ => 0⟩ = .ok ⟨.sampleOfMoment, store, []⟩ :=
  build_ofAge store (by decide) (by decide) _

theorem Layer.not_le_epoch_of_sampleOfMoment {time : Time}
    (h : Time.epoch.add? sampleOfMoment.policy.maxTtl = some time) : ¬time ≤ .epoch := by
  have hnanos : time.nanos = 1000000000 := Time.add?_eq_some_iff.1 h
  intro hle
  have hle : time.nanos ≤ 0 := hle
  rw [hnanos] at hle
  nomatch hle

section

variable {σ : Type} [Backend σ]

def firstVisit (store : σ) (steps : Nat) : Cache σ :=
  (oneRequest store (.ok .empty)).play .sampleOfMoment (List.replicate steps (.step 0))

/-- After the first one is finished, another request comes in and takes some steps. -/
def nextVisit (store : σ) (steps : Nat) : Cache σ :=
  ((firstVisit store 7).enlist (.sample 0 (.ok .empty))).1.play .sampleOfMoment
    (List.replicate steps (.step (firstVisit store 7).tasks.length))

theorem clocks_firstVisit (store : σ) {part : List (Action σ)} (hpart : part <+: List.replicate 7 (.step 0)) :
    ((oneRequest store (.ok .empty)).play .sampleOfMoment part).clock = .epoch
      ∧ ((oneRequest store (.ok .empty)).play .sampleOfMoment part).systemTime = .epoch :=
  clocks_play_of_steps fun _ hmem => List.eq_of_mem_replicate (hpart.subset hmem)

variable [Backend.Legible σ]

/-- That the next visit is answered from what is in the store after the first one. -/
def AnsweredNext (store : σ) : Prop :=
  let i := (firstVisit store 7).tasks.length
  ∃ entry expiry, under? (firstVisit store 7).store "GET /" = some (entry, expiry)
    ∧ i ∉ (nextVisit store 4).callers
    ∧ (nextVisit store 4).phase? i
      = some (.done (.response .hit (Layer.sampleOfMoment.serve (.sample 0 (.ok .empty)) entry .epoch)))

end

theorem retention_of_nextVisit : AnsweredNext MemoryStore.empty ∧ AnsweredNext (RedisStore.empty "a") := by
  have hboth {σ : Type} [Backend σ] [Backend.Legible σ] (store : σ) (hkeeps : Keeps σ .epoch)
      (hworks : Works (firstVisit store 7).store)
      (hmiss : ((firstVisit store 7).phase? 0).any (Phase.isStorableMiss .sampleOfMoment) = true)
      (htold : ((firstVisit store 7).history.any fun note => note.task = 0 && note.record.tellsOfStore) = true)
      (hfinished : ∀ task ∈ (firstVisit store 7).tasks, task.phase.isFinished = true)
      (hvalid : (under? (firstVisit store 7).store "GET /").map (fun found => found.1.lastValid) = some .epoch)
      (hidle : ∀ n < 4,
        ((nextVisit store n).phase? (firstVisit store 7).tasks.length).any Phase.isWriting = false)
      (hstays : (nextVisit store 4).phase? (firstVisit store 7).tasks.length ≠ some .cancelled) :
      AnsweredNext store := by
    obtain ⟨response, hphase, -⟩ := exists_of_isStorableMiss hmiss
    obtain ⟨⟨task, record⟩, hmem, htells⟩ := List.any_eq_true.1 htold
    obtain ⟨htask, htells⟩ := Bool.and_eq_true_iff.1 htells
    obtain rfl : task = 0 := of_decide_eq_true htask
    have hown (action : Action σ) (haction : action ∈ List.replicate 7 (.step 0)) : action.isOf 0 = true := by
      rw [List.eq_of_mem_replicate haction]
      rfl
    have hkept (part : List (Action σ)) (hpart : part <+: List.replicate 7 (.step 0)) :
        Keeps σ ((oneRequest store (.ok .empty)).play .sampleOfMoment part).clock := by
      rw [(clocks_firstVisit store hpart).1]
      exact hkeeps
    obtain ⟨-, hstored⟩ := retention_of_build (Plan.build_moment store) .epoch .epoch []
    obtain ⟨key, entry, expiry, hkey, -, hunder, hexpiry, hanswered⟩ :=
      hstored (.sample 0 (.ok .empty)) (List.replicate 7 (.step 0)) hown hkept hphase hmem htells
    obtain rfl : key = "GET /" := by
      have hsame : Layer.sampleOfMoment.keyOf (.sample 0 (.ok .empty)) = some "GET /" := by decide +kernel
      exact Option.some.inj (hkey.symm.trans hsame)
    have hunder : under? (firstVisit store 7).store "GET /" = some (entry, expiry) := hunder
    have hlives (time : Time) (htime : time ∈ expiry) : ¬time ≤ .epoch := by
      obtain ⟨part, hpart, hadd⟩ := hexpiry time htime
      have hadd : ((oneRequest store (.ok .empty)).play .sampleOfMoment part).systemTime.add?
          Layer.sampleOfMoment.policy.maxTtl = some time := hadd
      rw [(clocks_firstVisit store hpart).2] at hadd
      exact Layer.not_le_epoch_of_sampleOfMoment hadd
    have hlast : entry.lastValid = .epoch := by
      rw [hunder] at hvalid
      exact Option.some.inj hvalid
    have hdiscarding (task : Task) (hmem : task ∈ (firstVisit store 7).tasks) (again : Bool) :
        task.phase ≠ .discarding "GET /" again := by
      intro heq
      nomatch (congrArg Phase.isFinished heq).symm.trans (hfinished task hmem)
    have hanswered : AnsweredFrom .sampleOfMoment (firstVisit store 7) "GET /" entry expiry :=
      hanswered hworks hdiscarding
    have hclocks : (firstVisit store 7).clock = .epoch ∧ (firstVisit store 7).systemTime = .epoch :=
      clocks_firstVisit store (List.prefix_refl _)
    have hfresh : decideRequest (some entry) Layer.sampleOfMoment.policy
        (Layer.directivesOf (.sample 0 (.ok .empty))) (firstVisit store 7).clock = .hit := by
      unfold decideRequest Freshness.evaluate
      rw [Option.any_some, hlast, hclocks.1]
      decide +kernel
    rw [← hclocks.2] at hlives
    obtain ⟨hcallers, hends⟩ := hanswered.next (.sample 0 (.ok .empty)) hlives hkey rfl hfresh hidle
    refine ⟨entry, expiry, hunder, hcallers, ?_⟩
    rw [← hclocks.1]
    exact hends.resolve_left hstays
  refine ⟨?_, ?_⟩
  . have hkeeps : Keeps MemoryStore .epoch := trivial
    have hworks : Works (firstVisit MemoryStore.empty 7).store := trivial
    apply hboth MemoryStore.empty hkeeps hworks <;> decide +kernel
  . have hkeeps : Keeps RedisStore .epoch := (by decide : Time.epoch ≤ Codec.latest)
    have hworks : (firstVisit (RedisStore.empty "a") 7).store.server.outage.get = none := by decide +kernel
    apply hboth (RedisStore.empty "a") hkeeps hworks <;> decide +kernel

end ResponseCache
