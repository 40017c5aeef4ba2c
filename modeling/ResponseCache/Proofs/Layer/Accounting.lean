import Mathlib.Algebra.BigOperators.Group.Finset.Piecewise
import ResponseCache.Proofs.Layer.Disclosure
import ResponseCache.Proofs.Layer.Fidelity

/-!
This module contains the books that a cache keeps of its requests: what is counted of each of them, which
events tell of it, and in which order, against the reads and writes of the store and the calls of the
handler. From that, the counters add up over a run.
-/

namespace ResponseCache

open Cache

inductive Mark where
  | read (fails : Bool)
  | called
  | wrote (success : Bool)
  | counted (counter : Counter)
  | told (kind : EventType) (requestId : RequestId) (key : Option String)
  deriving DecidableEq

def Record.mark? : Record → Option Mark
  | .read _ (.ok _) => some (.read false)
  | .read _ (.error _) => some (.read true)
  | .wrote _ _ _ success => some (.wrote success)
  | .called => some .called
  | .counted counter => some (.counted counter)
  | .reported event => some (.told event.kind event.requestId event.key)
  | _ => none

/-- That an event tells of a request, by its own identifier and key. -/
def Layer.tells (layer : Layer) (i : Nat) (job : Job) (kind : EventType) : Mark :=
  .told kind (layer.requestId i job.request) (layer.keyOf job)

def lookMarks (tells : EventType → Mark) (fails : Bool) : List Mark :=
  if fails then [.read true, .counted .lookupError, tells .lookupFailed] else [.read false]

/-- What is kept of a request after its reads, by its answer and whether its handler refuses the call. -/
inductive Ended (tells : EventType → Mark) : (refusal : Option String) → Answer → List Mark → Prop where
  | unready {refusal : Option String} {message : String} : Ended tells refusal (.unready message) []
  | served {refusal : Option String} {response : Response} {kind : EventType}
      (hkind : kind = .hit ∨ kind = .notModified) :
      Ended tells refusal (.response .hit response) [.counted .hit, tells kind]
  | refused {message : String} :
      Ended tells (some message) (.failed message) [.counted .error, tells .error]
  | failed {message : String} : Ended tells none (.failed message) [.called, .counted .error, tells .error]
  | bypassed {response : Response} :
      Ended tells none (.response .bypass response) [.called, .counted .bypass, tells .bypass]
  | missed {response : Response} :
      Ended tells none (.response .miss response) [.called, .counted .miss, tells .miss]
  | stored {response : Response} :
      Ended tells none (.response .miss response)
        [.called, .counted .miss, tells .miss, .wrote true, .counted .store, tells .store]
  | storeFailed {response : Response} :
      Ended tells none (.response .miss response)
        [.called, .counted .miss, tells .miss, .wrote false, .counted .storeError, tells .storeFailed]
  | aborted : Ended tells none .aborted [.called, .counted .miss, tells .miss]

namespace Phase

def Looked : Phase → Nat → Prop
  | arriving, n => n = 0
  | reading _ again, n => n = again.toNat
  | discarding _ again, n => n = again.toNat
  | deciding _ _ again, n => n = again.toNat + 1
  | joining _ again, n => n = again.toNat + 1
  | locking _ .follower, n => n = 1
  | queued _ .follower, n => n = 1
  | landing _ (.unready _), n => n = 0
  | done (.unready _), n => n = 0
  | cancelled, _ => True
  | _, n => n ≤ 2

/-- What is kept of a request that has come to a point, other than of its reads. -/
def Tail (tells : EventType → Mark) (refusal : Option String) : Phase → List Mark → Prop
  | running _ _ _ _, tail => refusal = none ∧ tail = [.called]
  | stamping _ _ _, tail => refusal = none ∧ tail = [.called]
  | writing _ _ _, tail => refusal = none ∧ tail = [.called, .counted .miss, tells .miss]
  | landing _ answer, tail => Ended tells refusal answer tail
  | done answer, tail => Ended tells refusal answer tail
  | cancelled, _ => True
  | _, tail => tail = []

theorem looked_finish {guard : Option Guard} {answer : Answer} {n : Nat} (hn : (done answer).Looked n) :
    (finish guard answer).Looked n := by
  cases guard with
  | none => exact hn
  | some guard => cases answer <;> exact hn

theorem tail_finish {tells : EventType → Mark} {refusal : Option String} {guard : Option Guard}
    {answer : Answer} {tail : List Mark} (h : Ended tells refusal answer tail) :
    (finish guard answer).Tail tells refusal tail := by
  cases guard <;> exact h

end Phase

/-- That the books of a request are as they are to be at the point that it has come to. -/
def Accounted (layer : Layer) (i : Nat) (job : Job) (phase : Phase) (marks : List Mark) : Prop :=
  ∃ (looks : List Bool) (tail : List Mark), marks = looks.flatMap (lookMarks (layer.tells i job)) ++ tail
    ∧ phase.Looked looks.length ∧ phase.Tail (layer.tells i job) job.handler.refusal tail

def marksOf (records : List Record) : List Mark :=
  records.filterMap Record.mark?

theorem marksOf_append (records others : List Record) :
    marksOf (records ++ others) = marksOf records ++ marksOf others :=
  List.filterMap_append

section

variable {σ : Type} {layer : Layer} {c : Cache σ} {i : Nat} {task : Task} {e : Effect σ}

namespace Accounted

variable {job : Job} {phase phase' : Phase} {marks more : List Mark}

theorem append (h : Accounted layer i job phase marks) (hlooked : ∀ n, phase.Looked n → phase'.Looked n)
    (htail : ∀ tail, phase.Tail (layer.tells i job) job.handler.refusal tail →
      phase'.Tail (layer.tells i job) job.handler.refusal (tail ++ more)) :
    Accounted layer i job phase' (marks ++ more) := by
  obtain ⟨looks, tail, rfl, hn, ht⟩ := h
  exact ⟨looks, tail ++ more, List.append_assoc _ _ _, hlooked _ hn, htail tail ht⟩

/-- A step that keeps no book leads from one point before the call to another one. -/
theorem pass (h : Accounted layer i job phase marks) (hlooked : ∀ n, phase.Looked n → phase'.Looked n)
    (hold : ∀ tail, phase.Tail (layer.tells i job) job.handler.refusal tail → tail = [])
    (hnew : phase'.Tail (layer.tells i job) job.handler.refusal []) :
    Accounted layer i job phase' (marks ++ []) := by
  apply h.append hlooked
  intro tail ht
  rw [hold tail ht]
  exact hnew

theorem look (h : Accounted layer i job phase marks) (fails : Bool)
    (hlooked : ∀ n, phase.Looked n → phase'.Looked (n + 1))
    (hold : ∀ tail, phase.Tail (layer.tells i job) job.handler.refusal tail → tail = [])
    (hnew : phase'.Tail (layer.tells i job) job.handler.refusal []) :
    Accounted layer i job phase' (marks ++ lookMarks (layer.tells i job) fails) := by
  obtain ⟨looks, tail, rfl, hn, ht⟩ := h
  obtain rfl := hold tail ht
  refine ⟨looks ++ [fails], [], ?_, ?_, hnew⟩
  . simp
  . rw [List.length_append, List.length_singleton]
    exact hlooked _ hn

end Accounted

theorem marksOf_records {α : Type} (access : Access σ α) (first : List Record) :
    marksOf (access.records first) = marksOf first := by
  have hsent : marksOf (access.commands.map Record.sent) = [] := by
    unfold marksOf
    rw [List.filterMap_map, List.filterMap_eq_nil_iff]
    exact fun _ _ => rfl
  unfold Access.records
  rw [marksOf_append, hsent, List.append_nil]

theorem marksOf_deciding (key : String) (decision : Decision) (again : Bool) :
    marksOf (deciding task key decision again) = [] := by
  cases again <;> rfl

theorem EventSettings.shouldSample_of_rate {s : EventSettings} (henabled : s.enabled = true)
    (hrate : s.sampleRate = 1) (draw : Float) : s.shouldSample draw = true := by
  have hpositive : decide ((1 : Float) ≤ 0) = false := by decide +kernel
  have hfull : decide ((1 : Float) ≤ 1) = true := by decide +kernel
  unfold shouldSample
  rw [henabled, hrate, hpositive, hfull]
  rfl

def Layer.TellsAll (layer : Layer) : Prop :=
  ∀ draw, layer.events.shouldSample draw = true

theorem marksOf_reporting (hall : layer.TellsAll) (records : List Record) (event : Event) :
    marksOf (c.reporting layer records event)
      = marksOf records ++ [.told event.kind event.requestId event.key] := by
  unfold reporting Layer.report
  rw [if_pos (hall _), marksOf_append]
  rfl

theorem marksOf_failing (hall : layer.TellsAll) (message : String) :
    marksOf (c.failing layer i task message) = [.counted .error, layer.tells i task.job .error] := by
  unfold failing
  rw [marksOf_reporting hall]
  rfl

theorem marksOf_stamping (hall : layer.TellsAll) (decision : Decision) (entry : Entry) :
    marksOf (c.stamping layer i task decision entry)
      = [.counted (if decision = .miss then .miss else .bypass),
        layer.tells i task.job (.ofOutcome decision.outcome)] := by
  unfold stamping
  rw [marksOf_reporting hall]
  rfl

theorem exists_marksOf_hitEvent (hall : layer.TellsAll) (entry : Entry) :
    ∃ kind, (kind = .hit ∨ kind = .notModified)
      ∧ marksOf (c.reporting layer [.counted .hit] (c.hitEvent layer i task entry))
        = [.counted .hit, layer.tells i task.job kind] := by
  rw [marksOf_reporting hall]
  unfold hitEvent
  simp only
  split
  next => exact ⟨.notModified, .inr rfl, rfl⟩
  next => exact ⟨.hit, .inl rfl, rfl⟩

variable [Backend σ]

/-- Every step keeps the books of its request. -/
theorem Transition.accounted (h : Transition layer c i task e) (hall : layer.TellsAll)
    (hstray : task.phase.isStray = false) {marks : List Mark}
    (hold : Accounted layer i task.job task.phase marks) :
    Accounted layer i task.job e.phase (marks ++ marksOf e.records) := by
  cases h with
  | unready hphase hready =>
    rw [hphase] at hold
    refine hold.append (fun _ hn => hn) ?_
    rintro _ rfl
    exact .unready
  | keyed hphase | missedAgain hphase | followed hphase | ledAtOnce hphase | followedAtOnce hphase
  | led hphase | waited hphase =>
    -- Until the handler is called for, the books hold nothing but reads.
    rw [hphase] at hold
    exact hold.pass (fun _ hn => hn) (fun _ ht => ht) rfl
  | keyless hphase hready hkey =>
    rw [hphase] at hold
    refine hold.pass ?_ (fun _ ht => ht) rfl
    rintro _ rfl
    exact Nat.zero_le 2
  | foundExpired hphase hresult =>
    rw [hphase] at hold
    rw [stay, marksOf_records]
    exact hold.pass (fun _ hn => hn) (fun _ ht => ht) rfl
  | looked hphase hresult hfound =>
    rw [hphase] at hold
    rw [stay, marksOf_records]
    exact hold.look false (fun _ hn => congrArg Nat.succ hn) (fun _ ht => ht) rfl
  | lookFailed hphase hresult =>
    rw [hphase] at hold
    rw [stay, marksOf_reporting hall, marksOf_append, marksOf_records]
    exact hold.look true (fun _ hn => congrArg Nat.succ hn) (fun _ ht => ht) rfl
  | discarded hphase =>
    rw [hphase] at hold
    exact hold.look false (fun _ hn => congrArg Nat.succ hn) (fun _ ht => ht) rfl
  | @hit _ again _ hphase hdecision =>
    rw [hphase] at hold
    rw [stay, marksOf_deciding]
    refine hold.pass ?_ (fun _ ht => ht) rfl
    rintro _ rfl
    exact Nat.succ_le_succ (Bool.toNat_le again)
  | missed hphase hdecision hflight =>
    rw [hphase] at hold
    rw [stay, marksOf_deciding]
    exact hold.pass (fun _ hn => hn) (fun _ ht => ht) rfl
  | unguarded hphase hdecision hne hflight =>
    rw [hphase] at hold
    rw [stay, marksOf_deciding]
    refine hold.pass ?_ (fun _ ht => ht) rfl
    rintro _ rfl
    exact Nat.le_succ 1
  | served hphase =>
    rw [hphase] at hold
    obtain ⟨kind, hkind, hmarks⟩ := exists_marksOf_hitEvent hall _
    rw [stay, hmarks]
    refine hold.append (fun _ hn => hn) ?_
    rintro _ rfl
    exact .served hkind
  | @began _ again hphase hlead =>
    rw [hphase] at hold
    refine hold.pass ?_ (fun _ ht => ht) rfl
    rintro _ rfl
    exact Nat.succ_le_succ (Bool.toNat_le again)
  | passedBy hphase hlead =>
    rw [hphase] at hold
    refine hold.pass ?_ (fun _ ht => ht) rfl
    rintro _ rfl
    exact Nat.le_refl 2
  | @queued _ role _ hphase hholder =>
    rw [hphase] at hold
    refine hold.pass ?_ (fun _ ht => ht) rfl
    cases role <;> exact fun _ hn => hn
  | refused hphase hready =>
    rw [hphase] at hold
    rw [stay, marksOf_failing hall]
    refine hold.append (fun _ hn => Phase.looked_finish hn) ?_
    rintro _ rfl
    exact Phase.tail_finish (hready ▸ .refused)
  | called hphase hready =>
    rw [hphase] at hold
    refine hold.append (fun _ hn => hn) ?_
    rintro _ rfl
    exact ⟨hready, rfl⟩
  | paused hphase | answered hphase =>
    rw [hphase] at hold
    refine hold.append (fun _ hn => hn) ?_
    rintro _ ⟨hready, rfl⟩
    exact ⟨hready, rfl⟩
  | failed hphase hanswer =>
    rw [hphase] at hold
    rw [stay, marksOf_failing hall]
    refine hold.append (fun _ hn => Phase.looked_finish hn) ?_
    rintro _ ⟨hready, rfl⟩
    exact Phase.tail_finish (hready ▸ .failed)
  | storable hphase hkey =>
    rw [hphase] at hold
    obtain ⟨-, rfl, -⟩ := Layer.storageKey?_eq_some.1 hkey
    rw [stay, marksOf_stamping hall]
    refine hold.append (fun _ hn => hn) ?_
    rintro _ ⟨hready, rfl⟩
    exact ⟨hready, rfl⟩
  | @unstorable decision _ _ hphase hkey =>
    rw [hphase] at hold hstray
    rw [stay, marksOf_stamping hall]
    refine hold.append (fun _ hn => Phase.looked_finish hn) ?_
    rintro _ ⟨hready, rfl⟩
    apply Phase.tail_finish
    rw [hready]
    -- This is the only place where a hit could be taken for a bypass.
    cases decision with
    | hit => cases hstray
    | miss => exact .missed
    | bypass => exact .bypassed
  | wrote hphase hresult =>
    rw [hphase] at hold
    rw [stay, marksOf_reporting hall, marksOf_append, marksOf_records]
    refine hold.append (fun _ hn => Phase.looked_finish hn) ?_
    rintro _ ⟨hready, rfl⟩
    exact Phase.tail_finish (hready ▸ .stored)
  | writeFailed hphase hresult =>
    rw [hphase] at hold
    rw [stay, marksOf_reporting hall, marksOf_append, marksOf_records]
    refine hold.append (fun _ hn => Phase.looked_finish hn) ?_
    rintro _ ⟨hready, rfl⟩
    exact Phase.tail_finish (hready ▸ .storeFailed)
  | writeAborted hphase hresult =>
    rw [hphase] at hold
    rw [stay, marksOf_records]
    refine hold.append (fun _ hn => Phase.looked_finish hn) ?_
    rintro _ ⟨hready, rfl⟩
    exact Phase.tail_finish (hready ▸ .aborted)
  | @landed guard answer hphase =>
    rw [hphase] at hold
    refine hold.append ?_ ?_
    . cases answer <;> exact fun _ hn => hn
    . intro tail ht
      rw [stay, marksOf, List.filterMap_nil, List.append_nil]
      exact ht

namespace Cache

def marks (c : Cache σ) (i : Nat) : List Mark :=
  marksOf ((c.notesOf i).map Note.record)

def tally (c : Cache σ) (mark : Mark) : Nat :=
  (marksOf (c.history.map Note.record)).count mark

def counted (c : Cache σ) (counter : Counter) : Nat :=
  c.tally (.counted counter)

omit [Backend σ] in
theorem marks_after_self (c : Cache σ) (i : Nat) (task : Task) (e : Effect σ) :
    (c.after i task e).marks i = c.marks i ++ marksOf e.records := by
  unfold marks
  rw [notesOf_after_self, List.map_append, marksOf_append, List.map_map]
  congr 2
  exact List.map_id _

omit [Backend σ] in
theorem marks_after_of_ne (c : Cache σ) {j : Nat} (hne : j ≠ i) (other : Task) (e : Effect σ) :
    (c.after j other e).marks i = c.marks i := by
  unfold marks
  rw [notesOf_after c other fun heq => absurd heq hne]

end Cache

def AllAccounted (layer : Layer) (c : Cache σ) : Prop :=
  ∀ i task, c.tasks[i]? = some task → Accounted layer i task.job task.phase (c.marks i)

namespace AllAccounted

omit [Backend σ] in
theorem after (hc : AllAccounted layer c)
    (hself : Accounted layer i task.job e.phase (c.marks i ++ marksOf e.records)) :
    AllAccounted layer (c.after i task e) := by
  intro k other hother
  cases getElem?_after e hother with
  | inl heq =>
    obtain ⟨rfl, rfl⟩ := heq
    rw [marks_after_self]
    exact hself
  | inr hne =>
    rw [marks_after_of_ne c hne.1.symm]
    exact hc k other hne.2

theorem move {drift : σ → σ → Prop} {c' : Cache σ} (hall : layer.TellsAll)
    (hlt : ∀ {note}, note ∈ c.history → note.task < c.tasks.length)
    (hstray : ∀ {i : Nat} {task : Task}, c.tasks[i]? = some task → task.phase.isStray = false)
    (hc : AllAccounted layer c) (hmove : Move layer drift c c') : AllAccounted layer c' := by
  apply hmove.rule hc
  . intro job k other hother
    cases getElem?_enlist hother with
    | inl hold => exact hc k other hold
    | inr hnew =>
      obtain ⟨rfl, rfl⟩ := hnew
      have hmarks : (c.enlist job).1.marks c.tasks.length = [] := by
        have hnotes : (c.enlist job).1.notesOf c.tasks.length = [] := by
          refine List.filter_eq_nil_iff.2 fun note hnote => ?_
          have hne := Nat.ne_of_lt (hlt hnote)
          simpa using hne
        unfold marks
        rw [hnotes]
        rfl
      rw [hmarks]
      exact ⟨[], [], rfl, rfl, rfl⟩
  . intro i task e hget h
    exact hc.after (h.accounted hall (hstray hget) (hc i task hget))
  . intro i task hget
    exact hc.after ((hc i task hget).append (fun _ _ => trivial) fun _ _ => trivial)
  . intro store clock systemTime _
    exact hc

end AllAccounted

theorem allAccounted_of_reachable {drift : σ → σ → Prop} {store : σ} {clock systemTime : Time}
    (hall : layer.TellsAll) (hreach : Reachable layer drift (start store clock systemTime) c) :
    AllAccounted layer c := by
  induction hreach with
  | start => exact fun i task hget => nomatch hget
  | move hreach hmove ih =>
    have hchronicled := hreach.invariant (Chronicled.start store clock systemTime) Chronicled.move
    exact AllAccounted.move hall hchronicled.task_lt (not_isStray_of_reachable rfl hreach) ih hmove

/-- Whether a request comes in, which it does not if its handler is not ready for it. -/
def Answer.isEntered : Answer → Bool
  | .unready _ => false
  | _ => true

def Answer.isFailed : Answer → Bool
  | .failed _ => true
  | _ => false

/-- Whether a request has been answered, having come in. -/
def Task.isServed (task : Task) : Bool :=
  task.phase.answer?.any Answer.isEntered

/-- Whether a request was to call its handler in vain, which was not ready for the call. -/
def Task.isRefused (task : Task) : Bool :=
  task.job.handler.refusal.isSome && task.phase.answer?.any Answer.isFailed

theorem countP_eq_sum {α : Type} (l : List α) (p : α → Bool) :
    l.countP p = ∑ i ∈ Finset.range l.length, if l[i]?.any p then 1 else 0 := by
  induction l with
  | nil => rfl
  | cons a l ih =>
    rw [List.countP_cons, List.length_cons, Finset.sum_range_succ', ih]
    rfl

omit [Backend σ] in
theorem count_marksOf_eq_sum {notes : List Note} {n : Nat} (hlt : ∀ note ∈ notes, note.task < n) (mark : Mark) :
    (marksOf (notes.map Note.record)).count mark
      = ∑ i ∈ Finset.range n,
          (marksOf ((notes.filter fun note => note.task = i).map Note.record)).count mark := by
  induction notes with
  | nil => simp [marksOf]
  | cons note notes ih =>
    have hcons (i : Nat) :
        (marksOf (((note :: notes).filter fun other => other.task = i).map Note.record)).count mark
          = (if note.task = i then (marksOf [note.record]).count mark else 0)
            + (marksOf ((notes.filter fun other => other.task = i).map Note.record)).count mark := by
      rw [List.filter_cons]
      by_cases heq : note.task = i
      . rw [if_pos (decide_eq_true heq), if_pos heq, ← List.count_append, ← marksOf_append]
        rfl
      . rw [if_neg (by simpa using heq), if_neg heq, Nat.zero_add]
    obtain ⟨hnote, hnotes⟩ := List.forall_mem_cons.1 hlt
    simp only [hcons]
    rw [Finset.sum_add_distrib, Finset.sum_ite_eq, if_pos (Finset.mem_range.2 hnote), ← ih hnotes,
      ← List.count_append, ← marksOf_append]
    rfl

omit [Backend σ] in
/-- The counters of a request that is answered, against its answer, the call of its handler, and its write. -/
theorem Ended.count_eq {job : Job} {refusal : Option String} {answer : Answer} {tail : List Mark}
    (h : Ended (layer.tells i job) refusal answer tail) :
    tail.count (.counted .hit) + tail.count (.counted .miss) + tail.count (.counted .bypass)
          + tail.count (.counted .error)
        = (if answer.isEntered then 1 else 0)
      ∧ tail.count (.counted .miss) + tail.count (.counted .bypass) + tail.count (.counted .error)
        = tail.count .called + (if refusal.isSome && answer.isFailed then 1 else 0)
      ∧ tail.count (.counted .store) + tail.count (.counted .storeError)
        = tail.count (.wrote true) + tail.count (.wrote false) := by
  cases h with
  | _ => simp [Layer.tells, Answer.isEntered, Answer.isFailed]

omit [Backend σ] in
theorem count_looks {tells : EventType → Mark} {mark : Mark} (looks : List Bool)
    (hnot : ∀ fails, mark ∉ lookMarks tells fails) (tail : List Mark) :
    (looks.flatMap (lookMarks tells) ++ tail).count mark = tail.count mark := by
  rw [List.count_append, Nat.add_eq_right, List.count_eq_zero, List.mem_flatMap]
  rintro ⟨fails, -, hmem⟩
  exact hnot fails hmem

omit [Backend σ] in
theorem Accounted.ended {job : Job} {answer : Answer} {marks : List Mark}
    (h : Accounted layer i job (.done answer) marks) :
    ∃ (looks : List Bool) (tail : List Mark), marks = looks.flatMap (lookMarks (layer.tells i job)) ++ tail
      ∧ looks.length ≤ 2 ∧ (answer.isEntered = false → looks = [])
      ∧ Ended (layer.tells i job) job.handler.refusal answer tail := by
  obtain ⟨looks, tail, hmarks, hn, ht⟩ := h
  refine ⟨looks, tail, hmarks, ?_, ?_, ht⟩
  . cases answer with
    | unready message => exact (Nat.le_of_eq hn).trans (Nat.zero_le 2)
    | _ => exact hn
  . intro hnot
    cases answer with
    | unready message => exact List.length_eq_zero_iff.1 hn
    | _ => nomatch hnot

omit [Backend σ] in
theorem Accounted.count_eq {answer : Answer} {marks : List Mark}
    (h : Accounted layer i task.job task.phase marks) (hphase : task.phase = .done answer) :
    marks.count (.counted .hit) + marks.count (.counted .miss) + marks.count (.counted .bypass)
          + marks.count (.counted .error)
        = (if task.isServed then 1 else 0)
      ∧ marks.count (.counted .miss) + marks.count (.counted .bypass) + marks.count (.counted .error)
        = marks.count .called + (if task.isRefused then 1 else 0)
      ∧ marks.count (.counted .store) + marks.count (.counted .storeError)
        = marks.count (.wrote true) + marks.count (.wrote false) := by
  rw [hphase] at h
  obtain ⟨looks, tail, rfl, -, -, hended⟩ := h.ended
  have hskip {mark : Mark} (hnot : ∀ fails, mark ∉ lookMarks (layer.tells i task.job) fails) :=
    count_looks looks hnot tail
  unfold Task.isServed Task.isRefused
  rw [hphase, hskip, hskip, hskip, hskip, hskip, hskip, hskip, hskip, hskip]
  . exact hended.count_eq
  all_goals simp [lookMarks, Layer.tells]

namespace Cache

omit [Backend σ] in
theorem tally_eq_sum (hlt : ∀ {note}, note ∈ c.history → note.task < c.tasks.length) (mark : Mark) :
    c.tally mark = ∑ i ∈ Finset.range c.tasks.length, (c.marks i).count mark :=
  count_marksOf_eq_sum (fun _ => hlt) mark

omit [Backend σ] in
theorem tally_called (c : Cache σ) : c.tally .called = c.callers.length := by
  unfold tally marksOf callers
  rw [List.filterMap_map, List.length_map, ← List.countP_eq_length_filter, List.count, List.countP_filterMap]
  apply List.countP_congr
  intro note _
  cases hrecord : note.record with
  | read key result => cases result <;> simp [Record.mark?, Record.isCall, hrecord]
  | _ => simp [Record.mark?, Record.isCall, hrecord]

def isSetCall (c : Cache σ) (layer : Layer) : Action σ → Bool
  | .step i => (c.storeCall? layer i (.step i)).any StoreCall.isSet
  | _ => false

def setCalls (layer : Layer) : Cache σ → List (Action σ) → Nat
  | _, [] => 0
  | c, action :: actions => (c.isSetCall layer action).toNat + setCalls layer (c.act layer action) actions

def writes (c : Cache σ) : List (Entry × Bool) :=
  c.history.filterMap fun note => note.record.write?

omit [Backend σ] in
theorem tally_wrote (c : Cache σ) :
    c.tally (.wrote true) + c.tally (.wrote false) = c.writes.length := by
  unfold tally marksOf writes
  induction c.history with
  | nil => rfl
  | cons note notes ih =>
    rw [List.map_cons, List.filterMap_cons, List.filterMap_cons]
    cases note.record with
    | read key result =>
      cases result with
      | _ => simpa [Record.mark?, Record.write?] using ih
    | wrote key entry ttl success =>
      simp only [Record.mark?]
      change _ = ((entry, success) :: _).length
      rw [List.length_cons, ← ih]
      cases success with
      | true => simp [Nat.add_right_comm]
      | false => simp [Nat.add_assoc]
    | _ => simpa [Record.mark?, Record.write?] using ih

omit [Backend σ] in
theorem writes_after (c : Cache σ) (i : Nat) (task : Task) (e : Effect σ) :
    (c.after i task e).writes = c.writes ++ e.records.filterMap Record.write? := by
  unfold writes after
  rw [List.filterMap_append, List.filterMap_map]
  rfl

omit [Backend σ] in
theorem isSetCall_step :
    c.isSetCall layer (.step i) = (c.storeCall? layer i (.step i)).any StoreCall.isSet := rfl

theorem isSetCall_of_step_eq_none (hstep : c.step layer i = none) : c.isSetCall layer (.step i) = false := by
  rw [isSetCall_step, storeCall?_of_step_eq_none hstep]
  rfl

/-- A step leaves a record of a write exactly if it calls the store for one, unless that aborts. -/
theorem length_writes_transition (hget : c.tasks[i]? = some task) (h : Transition layer c i task e)
    (hne : e.phase.answer? ≠ some .aborted) :
    (e.records.filterMap Record.write?).length = (c.isSetCall layer (.step i)).toNat := by
  rw [isSetCall_step, storeCall?_step hget]
  cases hwriting : task.phase.isWriting with
  | false =>
    rw [h.filterMap_write? hwriting]
    cases hphase : task.phase with
    | writing key guard entry =>
      rw [hphase] at hwriting
      exact absurd hwriting.symm Bool.false_ne_true
    | _ => rfl
  | true =>
    cases h with
    | wrote hphase =>
      rw [hphase, stay, filterMap_write?_wrote _ _ _ _ _ _ _ rfl]
      rfl
    | writeFailed hphase =>
      rw [hphase, stay, filterMap_write?_wrote _ _ _ _ _ _ _ rfl]
      rfl
    | writeAborted hphase => exact absurd (Phase.answer?_finish _ _) hne
    | _ =>
      rw [‹task.phase = _›] at hwriting
      exact absurd hwriting Bool.false_ne_true

/-- Unless one of them is aborted, all writes for which the store is called are on record. -/
theorem length_writes_play (layer : Layer) (c : Cache σ) (actions : List (Action σ))
    (hend : ∀ (i : Nat) (task : Task), (c.play layer actions).tasks[i]? = some task →
      ∃ answer, task.phase = .done answer ∧ answer ≠ .aborted) :
    (c.play layer actions).writes.length = c.writes.length + c.setCalls layer actions := by
  induction actions generalizing c with
  | nil => rfl
  | cons action actions ih =>
    rw [play_cons] at hend ⊢
    rw [ih _ hend, setCalls, ← Nat.add_assoc]
    congr 1
    cases action with
    | step i =>
      cases hstep : c.step layer i with
      | none =>
        rw [act_step_of_eq_none hstep, isSetCall_of_step_eq_none hstep]
        rfl
      | some c' =>
        obtain ⟨task, e, hget, h, rfl⟩ := Transition.of_step hstep
        rw [act_step_of_eq_some hstep] at hend ⊢
        rw [writes_after, List.length_append, length_writes_transition hget h]
        intro haborted
        obtain ⟨-, task', hget', hphase⟩ :=
          notesOf_play_of_answered layer (getElem?_after_self hget e) haborted actions
        obtain ⟨answer, hdone, hne⟩ := hend i task' hget'
        rw [hdone] at hphase
        exact hphase.elim nofun fun heq => hne (Option.some.inj heq)
    | cancel i =>
      cases cancel_eq c i with
      | inl hsame =>
        simp only [act, hsame]
        rfl
      | inr hcancel =>
        obtain ⟨task, -, -, hleave⟩ := hcancel
        simp only [act, hleave, writes_after]
        exact congrArg List.length (List.append_nil _)
    | _ => rfl

end Cache

omit [Backend σ] in
theorem tally_add_of_finished (hlt : ∀ {note}, note ∈ c.history → note.task < c.tasks.length)
    (hc : AllAccounted layer c) (hdone : ∀ task ∈ c.tasks, ∃ answer, task.phase = .done answer) :
    c.counted .hit + c.counted .miss + c.counted .bypass + c.counted .error = c.tasks.countP Task.isServed
      ∧ c.counted .miss + c.counted .bypass + c.counted .error
        = c.tally .called + c.tasks.countP Task.isRefused
      ∧ c.counted .store + c.counted .storeError = c.tally (.wrote true) + c.tally (.wrote false) := by
  have hcount {i : Nat} (hi : i ∈ Finset.range c.tasks.length) :
      ∃ task, c.tasks[i]? = some task ∧ ∃ answer, task.phase = .done answer := by
    have hget := List.getElem?_eq_getElem (Finset.mem_range.1 hi)
    exact ⟨_, hget, hdone _ (List.mem_of_getElem? hget)⟩
  -- All totals are sums over the requests, and the equations hold of each request.
  simp only [counted, tally_eq_sum hlt, countP_eq_sum, ← Finset.sum_add_distrib]
  refine ⟨Finset.sum_congr rfl ?_, Finset.sum_congr rfl ?_, Finset.sum_congr rfl ?_⟩
  . intro i hi
    obtain ⟨task, hget, answer, hphase⟩ := hcount hi
    rw [hget]
    exact ((hc i task hget).count_eq hphase).1
  . intro i hi
    obtain ⟨task, hget, answer, hphase⟩ := hcount hi
    rw [hget]
    exact ((hc i task hget).count_eq hphase).2.1
  . intro i hi
    obtain ⟨task, hget, answer, hphase⟩ := hcount hi
    exact ((hc i task hget).count_eq hphase).2.2

/--
The books of a cache that logs all events. What is kept of a request that is answered is what belongs to its
answer, in this order, and no request goes to its handler that is decided to be a hit. Once all requests are
answered, and none was aborted, the counters add up to the requests, to the calls of the handlers with those
that were refused, and to the calls of the store for a write.
-/
theorem accounts_of_play (layer : Layer) (henabled : layer.events.enabled = true)
    (hrate : layer.events.sampleRate = 1) (store : σ) (clock systemTime : Time) (actions : List (Action σ)) :
    let first := Cache.start store clock systemTime
    let c := first.play layer actions
    (∀ (i : Nat) (task : Task) (answer : Answer), c.tasks[i]? = some task → task.phase = .done answer →
        ∃ (looks : List Bool) (tail : List Mark),
          c.marks i = looks.flatMap (lookMarks (layer.tells i task.job)) ++ tail ∧ looks.length ≤ 2
            ∧ (answer.isEntered = false → looks = [])
            ∧ Ended (layer.tells i task.job) task.job.handler.refusal answer tail)
      ∧ (∀ (i : Nat) (task : Task), c.tasks[i]? = some task → task.phase.isStray = false)
      ∧ ((∀ task ∈ c.tasks, ∃ answer, task.phase = .done answer ∧ answer ≠ .aborted) →
        c.counted .hit + c.counted .miss + c.counted .bypass + c.counted .error = c.tasks.countP Task.isServed
          ∧ c.counted .miss + c.counted .bypass + c.counted .error
            = c.calls + c.tasks.countP Task.isRefused
          ∧ c.counted .store + c.counted .storeError = first.setCalls layer actions) := by
  intro first c
  have hreach : Reachable layer (fun _ _ => True) first c := first.reachable_play layer actions
  have hchronicled := hreach.invariant (Chronicled.start store clock systemTime) Chronicled.move
  have hall : layer.TellsAll := EventSettings.shouldSample_of_rate henabled hrate
  have haccounted := allAccounted_of_reachable hall hreach
  refine ⟨?_, ?_, ?_⟩
  . intro i task answer hget hphase
    have h := haccounted i task hget
    rw [hphase] at h
    exact h.ended
  . intro i task hget
    exact not_isStray_of_reachable rfl hreach hget
  . intro hdone
    have hfinished (task : Task) (hmem : task ∈ c.tasks) : ∃ answer, task.phase = .done answer := by
      obtain ⟨answer, hphase, -⟩ := hdone task hmem
      exact ⟨answer, hphase⟩
    have hwrites := length_writes_play layer first actions fun i task hget =>
      hdone task (List.mem_of_getElem? hget)
    have hsums := tally_add_of_finished hchronicled.task_lt haccounted hfinished
    rw [tally_called, ← hchronicled.calls_eq, tally_wrote, hwrites] at hsums
    exact ⟨hsums.1, hsums.2.1, hsums.2.2.trans (Nat.zero_add _)⟩

end

def Phase.isAnswered : Phase → Bool
  | .done answer => answer ≠ .aborted
  | _ => false

theorem Phase.exists_of_isAnswered {phase : Phase} (h : phase.isAnswered = true) :
    ∃ answer, phase = .done answer ∧ answer ≠ .aborted := by
  unfold isAnswered at h
  split at h
  next answer => exact ⟨answer, rfl, of_decide_eq_true h⟩
  next => nomatch h

/-- Three requests for the same, of which the first is refused, the second misses, and the third one hits. -/
def refusedThenServed : List (Action MemoryStore) :=
  [.enlist .refused, .enlist (.sample 0 (.ok .empty)), .enlist (.sample 0 (.ok .empty))]
    ++ (List.replicate 4 (.step 0) ++ (List.replicate 7 (.step 1) ++ List.replicate 4 (.step 2)))

theorem accounts_of_refusedThenServed :
    let first := Cache.start MemoryStore.empty .epoch .epoch
    let c := first.play .logging refusedThenServed
    Layer.logging.events.enabled = true ∧ Layer.logging.events.sampleRate = 1
      ∧ (∀ task ∈ c.tasks, ∃ answer, task.phase = .done answer ∧ answer ≠ .aborted)
      ∧ (∀ (i : Nat) (task : Task) (answer : Answer), c.tasks[i]? = some task → task.phase = .done answer →
        ∃ (looks : List Bool) (tail : List Mark),
          c.marks i = looks.flatMap (lookMarks (Layer.logging.tells i task.job)) ++ tail ∧ looks.length ≤ 2
            ∧ (answer.isEntered = false → looks = [])
            ∧ Ended (Layer.logging.tells i task.job) task.job.handler.refusal answer tail)
      ∧ c.counted .hit + c.counted .miss + c.counted .bypass + c.counted .error = 3
      ∧ c.counted .miss + c.counted .bypass + c.counted .error = 1 + 1
      ∧ c.counted .store + c.counted .storeError = 1 := by
  intro first c
  have hrate : Layer.logging.events.sampleRate = 1 := rfl
  obtain ⟨hmarks, -, hsums⟩ :=
    accounts_of_play Layer.logging rfl hrate MemoryStore.empty .epoch .epoch refusedThenServed
  have hanswered : ∀ task ∈ c.tasks, task.phase.isAnswered = true := by decide +kernel
  have hdone : ∀ task ∈ c.tasks, ∃ answer, task.phase = .done answer ∧ answer ≠ .aborted :=
    fun task hmem => Phase.exists_of_isAnswered (hanswered task hmem)
  obtain ⟨hserved, hcalled, hset⟩ := hsums hdone
  refine ⟨rfl, hrate, hdone, hmarks, hserved.trans ?_, hcalled.trans ?_, hset.trans ?_⟩
  . decide +kernel
  . decide +kernel
  . decide +kernel

/-- A request whose handler is not ready for the call is counted as an error, and no handler is called. -/
theorem counted_of_refused :
    let c := (Cache.start MemoryStore.empty .epoch .epoch).play .logging
      (.enlist .refused :: List.replicate 4 (.step 0))
    (∀ task ∈ c.tasks, task.phase.isAnswered = true)
      ∧ c.counted .miss + c.counted .bypass + c.counted .error = 1 ∧ c.calls = 0 := by
  decide +kernel

end ResponseCache
