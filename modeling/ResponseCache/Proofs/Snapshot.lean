import Mathlib.Data.List.Induction
import ResponseCache.Proofs.Replay
import ResponseCache.Proofs.Text.Case

/-!
This module contains what is left in a snapshot of all that was done with a capture, in whatever order: the
last status, the bytes of all pieces, and of each name the first value. Of a response with its body the status,
the header fields and the bytes matter, and not in which pieces the bytes came.
-/

namespace ResponseCache

theorem lowerCase_lowerCase (s : String) : lowerCase (lowerCase s) = lowerCase s := by
  unfold lowerCase
  rw [String.toList_ofList, List.map_map]
  congr 1
  apply List.map_congr_left
  intro c _
  exact Text.toLower_toLower c

inductive Capture.Action where
  | setStatus (status : Status)
  | setHeader (name : String) (value : Bytes)
  | write (bytes : Bytes)
  deriving DecidableEq, Repr

namespace Capture

def act (c : Capture) : Action → Capture
  | .setStatus status => c.setStatus status
  | .setHeader name value => c.setHeader name value
  | .write bytes => c.write bytes

def ofActions (actions : List Action) : Capture :=
  actions.foldl act empty

theorem ofActions_concat (actions : List Action) (action : Action) :
    ofActions (actions ++ [action]) = (ofActions actions).act action := by
  unfold ofActions
  rw [List.foldl_append]
  rfl

def Action.status? : Action → Option Status
  | .setStatus status => some status
  | _ => none

def Action.field? : Action → Option (String × Bytes)
  | .setHeader name value => some (name, value)
  | _ => none

def Action.written : Action → Bytes
  | .write bytes => bytes
  | _ => []

/-- Of some fields the first of each name in any case, in the order in which the names came first. -/
structure FirstValues (fields kept : List (String × Bytes)) : Prop where
  names_eq : kept.map Prod.fst = (fields.map fun field => lowerCase field.1).eraseDups
  lowerCase_eq : ∀ field ∈ kept, lowerCase field.1 = field.1
  nodup : (kept.map Prod.fst).Nodup
  value_eq : ∀ field ∈ kept,
    (fields.find? fun other => lowerCase other.1 = field.1).map Prod.snd = some field.2

namespace FirstValues

variable {fields kept : List (String × Bytes)}

theorem empty : FirstValues [] [] :=
  ⟨rfl, List.forall_mem_nil _, List.nodup_nil, List.forall_mem_nil _⟩

theorem mem_names_iff (h : FirstValues fields kept) {name : String} :
    name ∈ kept.map Prod.fst ↔ ∃ field ∈ fields, lowerCase field.1 = name := by
  rw [h.names_eq, List.mem_eraseDups, List.mem_map]

/-- What was found among the first fields is also found among more of them. -/
theorem value_eq_append (h : FirstValues fields kept) (more : List (String × Bytes)) :
    ∀ field ∈ kept,
      ((fields ++ more).find? fun other => lowerCase other.1 = field.1).map Prod.snd = some field.2 := by
  intro field hmem
  obtain ⟨found, hfind, hvalue⟩ := Option.map_eq_some_iff.1 (h.value_eq field hmem)
  rw [List.find?_append, hfind, Option.some_or, Option.map_some, hvalue]

/-- Another field of a name that is there is left out. -/
theorem concat_of_mem (h : FirstValues fields kept) {name : String} (value : Bytes)
    (hmem : lowerCase name ∈ kept.map Prod.fst) : FirstValues (fields ++ [(name, value)]) kept where
  names_eq := by
    have hthere : lowerCase name ∈ fields.map fun field => lowerCase field.1 := by
      rw [h.names_eq, List.mem_eraseDups] at hmem
      exact hmem
    rw [h.names_eq, List.map_append, List.map_singleton, List.eraseDups_append]
    simp [List.removeAll, hthere]
  lowerCase_eq := h.lowerCase_eq
  nodup := h.nodup
  value_eq := h.value_eq_append _

/-- A field of a new name comes last. -/
theorem concat_of_not_mem (h : FirstValues fields kept) {name : String} (value : Bytes)
    (hmem : lowerCase name ∉ kept.map Prod.fst) :
    FirstValues (fields ++ [(name, value)]) (kept ++ [(lowerCase name, value)]) where
  names_eq := by
    have hnew : lowerCase name ∉ fields.map fun field => lowerCase field.1 := by
      rw [h.names_eq, List.mem_eraseDups] at hmem
      exact hmem
    rw [List.map_append, h.names_eq, List.map_append, List.map_singleton, List.map_singleton,
      List.eraseDups_append]
    simp [List.removeAll, hnew, List.eraseDups_cons]
  lowerCase_eq := by
    rw [List.forall_mem_append, List.forall_mem_singleton]
    exact ⟨h.lowerCase_eq, lowerCase_lowerCase name⟩
  nodup := by
    rw [List.map_append, List.map_singleton, List.nodup_append]
    refine ⟨h.nodup, List.pairwise_singleton _ _, ?_⟩
    intro other hother new hnew heq
    rw [heq, List.mem_singleton.1 hnew] at hother
    exact hmem hother
  value_eq := by
    rw [List.forall_mem_append, List.forall_mem_singleton]
    refine ⟨h.value_eq_append _, ?_⟩
    have hnone : (fields.find? fun other => lowerCase other.1 = lowerCase name) = none := by
      rw [List.find?_eq_none]
      intro other hother heq
      exact hmem (h.mem_names_iff.2 ⟨other, hother, of_decide_eq_true heq⟩)
    rw [List.find?_append, hnone]
    simp

theorem setHeader {c : Capture} (h : FirstValues fields c.headers) (name : String) (value : Bytes) :
    FirstValues (fields ++ [(name, value)]) (c.setHeader name value).headers := by
  unfold Capture.setHeader
  dsimp only
  split
  next hany =>
    apply h.concat_of_mem
    simpa using hany
  next hany =>
    apply h.concat_of_not_mem
    simpa using hany

end FirstValues

structure Holds (actions : List Action) (c : Capture) : Prop where
  status_eq : c.status = (actions.filterMap Action.status?).getLast?
  body_eq : c.body = actions.flatMap Action.written
  headers : FirstValues (actions.filterMap Action.field?) c.headers

theorem Holds.act {actions : List Action} {c : Capture} (h : Holds actions c) (action : Action) :
    Holds (actions ++ [action]) (c.act action) := by
  obtain ⟨hstatus, hbody, hheaders⟩ := h
  cases action with
  | setStatus status =>
    have hfields : (actions ++ [Action.setStatus status]).filterMap Action.field?
        = actions.filterMap Action.field? := by simp [Action.field?]
    refine ⟨?_, ?_, hfields ▸ hheaders⟩
    . simp [Capture.act, setStatus, Action.status?]
    . simp [Capture.act, setStatus, Action.written, hbody]
  | setHeader name value =>
    have hfields : (actions ++ [Action.setHeader name value]).filterMap Action.field?
        = actions.filterMap Action.field? ++ [(name, value)] := by simp [Action.field?]
    refine ⟨?_, ?_, hfields ▸ hheaders.setHeader name value⟩
    . simp [Capture.act, setHeader_status, Action.status?, hstatus]
    . simp [Capture.act, setHeader_body, Action.written, hbody]
  | write bytes =>
    have hfields : (actions ++ [Action.write bytes]).filterMap Action.field?
        = actions.filterMap Action.field? := by simp [Action.field?]
    refine ⟨?_, ?_, hfields ▸ hheaders⟩
    . simp [Capture.act, write, Action.status?, hstatus]
    . simp [Capture.act, write, Action.written, hbody]

theorem holds_ofActions (actions : List Action) : Holds actions (ofActions actions) := by
  induction actions using List.reverseRecOn with
  | nil => exact ⟨rfl, rfl, .empty⟩
  | append_singleton actions action ih =>
    rw [ofActions_concat]
    exact ih.act action

end Capture

def Frame.fault? : Frame → Option String
  | .error message => some message
  | _ => none

namespace Reply

def fault? (r : Reply) : Option String :=
  r.frames.findSome? Frame.fault?

/-- What is done with a capture to take up a response, its body in one piece. -/
def actions (r : Reply) : List Capture.Action :=
  .setStatus r.status :: r.headers.map (fun field => .setHeader field.1.text field.2.bytes)
    ++ [.write (r.frames.flatMap Frame.content)]

end Reply

namespace Capture

/-- A body is taken up as if it came in one piece, up to the first error. -/
theorem frames_eq (c : Capture) (frames : List Frame) :
    c.frames frames
      = match frames.findSome? Frame.fault? with
        | some message => .error message
        | none => .ok (c.write (frames.flatMap Frame.content)).snapshot := by
  induction frames generalizing c with
  | nil => simp [Capture.frames, write]
  | cons frame frames ih =>
    cases frame with
    | data bytes =>
      rw [Capture.frames, ih]
      simp [List.findSome?_cons, Frame.fault?, Frame.content, write]
    | trailers headers =>
      rw [Capture.frames, ih]
      simp [List.findSome?_cons, Frame.fault?, Frame.content]
    | error message => rfl

theorem setHeaders_eq_foldl_act (c : Capture) (headers : Headers) :
    c.setHeaders headers
      = (headers.map fun field => Action.setHeader field.1.text field.2.bytes).foldl act c := by
  rw [List.foldl_map]
  rfl

end Capture

theorem Reply.capture_eq (r : Reply) :
    r.capture
      = match r.fault? with
        | some message => .error message
        | none => .ok (Capture.ofActions r.actions).snapshot := by
  have hactions : Capture.ofActions r.actions
      = ((Capture.empty.setStatus r.status).setHeaders r.headers).write (r.frames.flatMap Frame.content) := by
    rw [Capture.setHeaders_eq_foldl_act]
    simp [Capture.ofActions, Reply.actions, Capture.act]
  rw [hactions]
  exact Capture.frames_eq _ _

/--
Whatever is done with a capture, its snapshot has the last status that was set, the bytes of all pieces in
order, and of the header fields the first of each name. A response is captured as if its body came in one
piece: in which pieces it came does not matter, nor which trailers came with them. After an error, at whatever
place, there is no snapshot.
-/
theorem Capture.snapshot_ofActions :
    (∀ actions : List Action,
      let snapshot := (ofActions actions).snapshot
      snapshot.status = ((actions.filterMap Action.status?).getLast?).getD .ok
        ∧ snapshot.body = actions.flatMap Action.written
        ∧ FirstValues (actions.filterMap Action.field?) snapshot.headers)
      ∧ (∀ r : Reply, r.fault? = none → r.capture = .ok (ofActions r.actions).snapshot)
      ∧ (∀ r other : Reply, other.status = r.status → other.headers = r.headers →
        other.frames.flatMap Frame.content = r.frames.flatMap Frame.content →
          r.fault? = none → other.fault? = none → other.capture = r.capture)
      ∧ ∀ (r : Reply) (before after : List Frame) (message : String),
        r.frames = before ++ .error message :: after → (∀ frame ∈ before, frame.fault? = none) →
          r.capture = .error message := by
  refine ⟨?_, ?_, ?_, ?_⟩
  . intro actions
    have hholds := holds_ofActions actions
    exact ⟨congrArg (·.getD .ok) hholds.status_eq, hholds.body_eq, hholds.headers⟩
  . intro r hfault
    rw [r.capture_eq, hfault]
  . intro r other hstatus hheaders hbody hfault hfault'
    have hactions : other.actions = r.actions := by
      unfold Reply.actions
      rw [hstatus, hheaders, hbody]
    rw [r.capture_eq, other.capture_eq, hfault, hfault', hactions]
  . intro r before after message hframes hbefore
    have hfault : r.fault? = some message := by
      unfold Reply.fault?
      rw [hframes, List.findSome?_append, List.findSome?_eq_none_iff.2 hbefore]
      rfl
    rw [r.capture_eq, hfault]

/-- A name in another case does not bring another value. -/
example :
    (Capture.ofActions [.setHeader "X-Version" [0x31], .write [0x61], .setHeader "x-version" [0x32]]).snapshot
      = ⟨.ok, [("x-version", [0x31])], [0x61]⟩ := by decide

end ResponseCache
