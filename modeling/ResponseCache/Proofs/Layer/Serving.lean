import ResponseCache.Proofs.Layer.Play

/-!
This module contains how a request comes to be answered from an entry: it is decided on by the entry for
the last time, and later on, maybe by another reading of the clock, the answer is made. A request that
goes to its handler is never answered so.
-/

namespace ResponseCache

open Cache

/-- Whether a request that is to be answered from an entry goes to its handler all the same. -/
def Phase.isStray : Phase → Bool
  | .calling decision _ => decision = .hit
  | .running decision _ _ _ => decision = .hit
  | .stamping decision _ _ => decision = .hit
  | .landing _ (.response .hit _) => true
  | _ => false

section

variable {σ : Type} {layer : Layer} {c : Cache σ} {i : Nat} {task : Task} {e : Effect σ}

theorem not_isStray_finish {answer : Answer} (hne : ∀ response, answer ≠ .response .hit response)
    (guard : Option Guard) : (Phase.finish guard answer).isStray = false := by
  cases guard with
  | none => rfl
  | some guard =>
    unfold Phase.finish Phase.isStray
    split
    next h => nomatch h
    next h => nomatch h
    next h => nomatch h
    next h => exact absurd (Phase.landing.inj h).2 (hne _)
    next => rfl

theorem finish_ne_hit {answer : Answer} {response : Response}
    (hne : ∀ response, answer ≠ .response .hit response) (guard : Option Guard) :
    Phase.finish guard answer ≠ .done (.response .hit response) := by
  intro h
  cases guard with
  | none => exact hne _ (Phase.done.inj h)
  | some guard => nomatch h

theorem outcome_ne_hit {decision : Decision} (hne : decision ≠ .hit) (response : Response)
    (other : Response) : Answer.response decision.outcome response ≠ .response .hit other := by
  intro h
  have houtcome := (Answer.response.inj h).1
  cases decision with
  | hit => exact hne rfl
  | miss => nomatch houtcome
  | bypass => nomatch houtcome

variable [Backend σ]

theorem Transition.not_isStray (h : Transition layer c i task e) (hold : task.phase.isStray = false) :
    e.phase.isStray = false := by
  cases h with
  | unguarded hphase hdecision hne =>
    exact decide_eq_false hne
  | refused =>
    apply not_isStray_finish
    exact fun _ => nofun
  | called hphase =>
    rw [hphase] at hold
    exact hold
  | paused hphase =>
    rw [hphase] at hold
    exact hold
  | failed =>
    apply not_isStray_finish
    exact fun _ => nofun
  | answered hphase =>
    rw [hphase] at hold
    exact hold
  | unstorable hphase =>
    rw [hphase] at hold
    exact not_isStray_finish (outcome_ne_hit (of_decide_eq_false hold) _) _
  | wrote =>
    apply not_isStray_finish
    exact fun _ => nofun
  | writeFailed =>
    apply not_isStray_finish
    exact fun _ => nofun
  | writeAborted =>
    apply not_isStray_finish
    exact fun _ => nofun
  | _ => rfl

theorem Transition.serving_of_hit (h : Transition layer c i task e) {response : Response}
    (hold : task.phase.isStray = false) (hhit : e.phase = .done (.response .hit response)) :
    ∃ entry, task.phase = .serving entry
      ∧ response = layer.serve task.job entry (c.now layer) := by
  cases h with
  | served hphase =>
    exact ⟨_, hphase, (Answer.response.inj (Phase.done.inj hhit)).2.symm⟩
  | refused =>
    refine absurd hhit (finish_ne_hit ?_ _)
    exact fun _ => nofun
  | failed =>
    refine absurd hhit (finish_ne_hit ?_ _)
    exact fun _ => nofun
  | unstorable hphase =>
    rw [hphase] at hold
    exact absurd hhit (finish_ne_hit (outcome_ne_hit (of_decide_eq_false hold) _) _)
  | wrote =>
    refine absurd hhit (finish_ne_hit ?_ _)
    exact fun _ => nofun
  | writeFailed =>
    refine absurd hhit (finish_ne_hit ?_ _)
    exact fun _ => nofun
  | writeAborted =>
    refine absurd hhit (finish_ne_hit ?_ _)
    exact fun _ => nofun
  | landed hphase =>
    rw [hphase, Phase.done.inj hhit] at hold
    nomatch hold
  | _ => nomatch hhit

theorem Transition.deciding_of_serving (h : Transition layer c i task e) {entry : Entry}
    (hserving : e.phase = .serving entry) :
    ∃ key again, task.phase = .deciding key (some entry) again
      ∧ decideRequest (some entry) layer.policy (Layer.directivesOf task.job) (c.now layer)
        = .hit := by
  cases h with
  | hit hphase hdecision =>
    obtain rfl := Phase.serving.inj hserving
    exact ⟨_, _, hphase, hdecision⟩
  | refused => exact absurd hserving (Phase.finish_ne rfl _ _)
  | failed => exact absurd hserving (Phase.finish_ne rfl _ _)
  | unstorable => exact absurd hserving (Phase.finish_ne rfl _ _)
  | wrote => exact absurd hserving (Phase.finish_ne rfl _ _)
  | writeFailed => exact absurd hserving (Phase.finish_ne rfl _ _)
  | writeAborted => exact absurd hserving (Phase.finish_ne rfl _ _)
  | _ => nomatch hserving

variable {first : Cache σ} {actions : List (Action σ)}

theorem not_isStray_of_play (hfirst : first.tasks = [])
    (hget : (first.play layer actions).tasks[i]? = some task) : task.phase.isStray = false := by
  rw [← Bool.not_eq_true]
  intro hstray
  obtain ⟨before, after, old, e, h⟩ := exists_crossing (Q := fun phase => phase.isStray = true)
    Bool.false_ne_true Bool.false_ne_true (arriving_of_eq_nil hfirst i) hget hstray
  have hnot := h.transition.not_isStray (Bool.eq_false_iff.2 h.outside)
  rw [h.inside] at hnot
  nomatch hnot

/--
How a request is answered from an entry in a run: in one state it is decided on by the entry, which is
a hit, and in a later state the answer is made. In between it waits for that, and afterwards nothing
happens to it, so that no decision on it is later.
-/
structure ServedFrom (layer : Layer) (first : Cache σ) (actions : List (Action σ)) (i : Nat) (job : Job)
    (entry : Entry) (response : Response) (before between after : List (Action σ)) : Prop where
  actions_eq : actions = before ++ .step i :: (between ++ .step i :: after)
  deciding : ∃ key again started,
    (first.play layer before).tasks[i]? = some ⟨job, started, .deciding key (some entry) again⟩
  decision_eq : decideRequest (some entry) layer.policy (Layer.directivesOf job)
    ((first.play layer before).now layer) = .hit
  serving : ∀ {part rest}, between = part ++ rest → ∃ started,
    (first.play layer (before ++ .step i :: part)).tasks[i]? = some ⟨job, started, .serving entry⟩
  response_eq : response = layer.serve job entry
    ((first.play layer (before ++ .step i :: between)).now layer)
  answered : ∀ {part rest}, after = part ++ rest → ∃ started,
    (first.play layer (before ++ .step i :: (between ++ .step i :: part))).tasks[i]?
      = some ⟨job, started, .done (.response .hit response)⟩

theorem exists_servedFrom (hfirst : first.tasks = [])
    (hget : (first.play layer actions).tasks[i]? = some task) {response : Response}
    (hphase : task.phase = .done (.response .hit response)) :
    ∃ entry before between after,
      ServedFrom layer first actions i task.job entry response before between after := by
  -- Backwards through the run: to where the answer was made, from there to the decision.
  obtain ⟨toAnswer, after, ⟨job, started, phase⟩, e, hanswer⟩ :=
    exists_crossing (Q := fun phase => phase = .done (.response .hit response)) nofun nofun
      (arriving_of_eq_nil hfirst i) hget hphase
  obtain ⟨entry, rfl, hresponse⟩ := hanswer.transition.serving_of_hit
    (not_isStray_of_play hfirst hanswer.getElem?_eq) hanswer.inside
  obtain ⟨before, between, ⟨job', earlier, phase⟩, e', hdecision⟩ :=
    exists_crossing (Q := fun phase => phase = .serving entry) nofun nofun (arriving_of_eq_nil hfirst i)
      hanswer.getElem?_eq rfl
  obtain ⟨key, again, rfl, hhit⟩ := hdecision.transition.deciding_of_serving hdecision.inside
  obtain rfl : job' = job := hdecision.job_eq
  obtain rfl : job' = task.job := hanswer.job_eq
  have hto := hdecision.actions_eq
  refine ⟨entry, before, between, after, ?_, ⟨key, again, earlier, hdecision.getElem?_eq⟩, hhit, ?_, ?_, ?_⟩
  . rw [hanswer.actions_eq, hto, List.append_assoc, List.cons_append]
  . intro part rest hbetween
    obtain ⟨⟨job, started, phase⟩, hserving, rfl, rfl⟩ := hdecision.stays hbetween
    exact ⟨started, hserving⟩
  . rw [hto] at hresponse
    exact hresponse
  . intro part rest hafter
    obtain ⟨⟨job, started, phase⟩, hdone, rfl, rfl⟩ := hanswer.stays hafter
    rw [hto, List.append_assoc, List.cons_append] at hdone
    exact ⟨started, hdone⟩

end

end ResponseCache
