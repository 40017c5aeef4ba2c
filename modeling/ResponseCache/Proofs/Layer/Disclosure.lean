import ResponseCache.Proofs.Layer.Telling

/-!
This module contains what the logged documents of events give away of a request when keys are hashed. Of two
requests that are alike but for their targets, and that meet with the same on their ways, the documents
differ in the targets, which they spell out, and at most in tags that were made from them.
-/

namespace ResponseCache

open Cache

namespace Event

def untargeted (e : Event) : Event :=
  { e with target := none }

def untagged (e : Event) : Event :=
  { e with etag := none }

theorem toJson?_congr {e e' : Event} {settings : EventSettings}
    (hkey : e.shownKey settings = e'.shownKey settings)
    (htarget : e.target.map Target.text = e'.target.map Target.text)
    (hothers : { e with key := none, target := none } = { e' with key := none, target := none }) :
    e.toJson? settings = e'.toJson? settings := by
  have hspelled (t : Option Target) : Json.optional (fun t => .string (String.ofList t.text)) t
      = Json.optional (fun text => .string (String.ofList text)) (t.map Target.text) := by
    cases t <;> rfl
  simp only [Event.mk.injEq, true_and] at hothers
  obtain ⟨htimestamp, hkind, hid, hmethod, hstatus, hetag, hage, hlatency, hsize, httl⟩ := hothers
  unfold toJson?
  rw [hkey, hspelled, htarget, ← hspelled, htimestamp, hkind, hid, hmethod, hstatus, hetag, hage, hlatency,
    hsize, httl]

theorem text_eq_of_toJson?_eq {e e' : Event} {settings : EventSettings} {t t' : Target} {timestamp : String}
    (htimestamp : e.timestamp.timestamp? = some timestamp) (htarget : e.target = some t)
    (htarget' : e'.target = some t') (h : e.toJson? settings = e'.toJson? settings) : t.text = t'.text := by
  have huri {e : Event} {t : Target} {timestamp : String} (htimestamp : e.timestamp.timestamp? = some timestamp)
      (htarget : e.target = some t) :
      (e.toJson? settings).bind (Json.field? "uri") = some (.string (String.ofList t.text)) := by
    unfold toJson?
    rw [htimestamp, htarget]
    rfl
  cases htimestamp' : e'.timestamp.timestamp? with
  | none =>
    unfold toJson? at h
    rw [htimestamp, htimestamp'] at h
    nomatch h
  | some timestamp' =>
    have hfield := huri htimestamp htarget
    rw [h, huri htimestamp' htarget'] at hfield
    exact (String.ofList_injective (Json.string.inj (Option.some.inj hfield))).symm

end Event

/--
Two requests that are alike as far as a log with hashed keys should tell: in their identifiers, methods and
hashed keys, and in what they demand of the responses they are served.
-/
structure Alike (layer : Layer) (i : Nat) (job : Job) (i' : Nat) (job' : Job) : Prop where
  requestId_eq : layer.requestId i job.request = layer.requestId i' job'.request
  method_eq : job.request.method = job'.request.method
  hashKey_eq : (layer.keyOf job).map hashKey = (layer.keyOf job').map hashKey
  directives_eq : Layer.directivesOf job = Layer.directivesOf job'
  conditions_eq : job.request.headers.getAll "if-none-match" = job'.request.headers.getAll "if-none-match"

variable {layer : Layer} {i i' : Nat} {job job' : Job}

namespace Alike

theorem demandsOf_eq (h : Alike layer i job i' job') : layer.demandsOf job = layer.demandsOf job' := by
  have hkeyed : (layer.keyOf job).isSome = (layer.keyOf job').isSome := by
    rw [← Option.isSome_map, h.hashKey_eq, Option.isSome_map]
  unfold Layer.demandsOf
  rw [hkeyed, h.directives_eq, h.conditions_eq]

theorem shownKey_eq (h : Alike layer i job i' job') {settings : EventSettings} (hhash : settings.hashKeys = true)
    (told : Telling) :
    (told.event layer i job).shownKey settings = (told.event layer i' job').shownKey settings := by
  unfold Event.shownKey Telling.event
  simp only [hhash, if_true]
  exact h.hashKey_eq

theorem toJson?_untargeted_untagged_eq (h : Alike layer i job i' job') {settings : EventSettings}
    (hhash : settings.hashKeys = true) (told : Telling) :
    (told.event layer i job).untargeted.untagged.toJson? settings
      = (told.event layer i' job').untargeted.untagged.toJson? settings := by
  refine Event.toJson?_congr (h.shownKey_eq hhash told) rfl ?_
  simp only [Event.untagged, Event.untargeted, Telling.event, h.requestId_eq, h.method_eq]

theorem toJson?_untargeted_eq (h : Alike layer i job i' job') {settings : EventSettings}
    (hhash : settings.hashKeys = true) (htag : layer.tagKey job = layer.tagKey job') (told : Telling) :
    (told.event layer i job).untargeted.toJson? settings
      = (told.event layer i' job').untargeted.toJson? settings := by
  refine Event.toJson?_congr (h.shownKey_eq hhash told) rfl ?_
  simp only [Event.untargeted, Telling.event, h.requestId_eq, h.method_eq, htag]

theorem toJson?_eq_iff (h : Alike layer i job i' job') {settings : EventSettings}
    (hhash : settings.hashKeys = true) (htag : layer.tagKey job = layer.tagKey job') (told : Telling) :
    (told.event layer i job).toJson? settings = (told.event layer i' job').toJson? settings
      ↔ job.request.target.text = job'.request.target.text := by
  have hepoch : Time.epoch.timestamp? = some "1970-01-01T00:00:00.000Z" := by decide +kernel
  constructor
  . exact Event.text_eq_of_toJson?_eq hepoch rfl rfl
  . intro htext
    refine Event.toJson?_congr (h.shownKey_eq hhash told) (congrArg some htext) ?_
    simp only [Telling.event, h.requestId_eq, h.method_eq, htag]

end Alike

/--
The documents of the events that were logged on behalf of a request, without times and with whatever else is
changed in the events.
-/
def Cache.documents {σ : Type} (c : Cache σ) (layer : Layer) (i : Nat) (change : Event → Event) :
    List (Option Json) :=
  (c.eventsOf i).map fun e => (change e.untimed).toJson? layer.events

section

variable {σ σ' : Type} [Backend σ] [Backend σ'] {first : Cache σ} {first' : Cache σ'}
  {started started' : Time} {actions : List (Action σ)} {actions' : List (Action σ')}

theorem untimed_eventsOf_play (layer : Layer) (hfirst : first.tasks[i]? = some ⟨job, started, .arriving⟩)
    (hnone : first.eventsOf i = []) (actions : List (Action σ)) :
    ((first.play layer actions).eventsOf i).map Event.untimed
      = (Stage.arriving.tellings layer (layer.demandsOf job) (first.sights layer i actions)).map
        (Telling.event layer i job) := by
  have hstands : Stands layer job .arriving .arriving := .arriving
  have hevents := eventsOf_play hfirst hstands actions
  rw [hnone, List.map_nil, List.nil_append] at hevents
  exact hevents

omit [Backend σ] in
theorem documents_of_untimed {c : Cache σ} {events : List Event}
    (hevents : (c.eventsOf i).map Event.untimed = events) (layer : Layer) (change : Event → Event) :
    c.documents layer i change = events.map fun e => (change e).toJson? layer.events := by
  unfold documents
  rw [← hevents, List.map_map]
  rfl

/--
What hashed keys hide. Of two requests in two caches that are alike and meet with the same on their ways, the
logged documents are the same apart from times, targets and tags. If their tags are made from the same key,
they are the same apart from times and targets; and they are wholly the same apart from times exactly if
nothing is logged of the requests, or their targets read the same.
-/
theorem documents_eq_of_alike (halike : Alike layer i job i' job') (hhash : layer.events.hashKeys = true)
    (hfirst : first.tasks[i]? = some ⟨job, started, .arriving⟩) (hnone : first.eventsOf i = [])
    (hfirst' : first'.tasks[i']? = some ⟨job', started', .arriving⟩) (hnone' : first'.eventsOf i' = [])
    (hsights : first.sights layer i actions = first'.sights layer i' actions') :
    (first.play layer actions).documents layer i (fun e => e.untargeted.untagged)
        = (first'.play layer actions').documents layer i' (fun e => e.untargeted.untagged)
      ∧ (layer.tagKey job = layer.tagKey job' →
        (first.play layer actions).documents layer i Event.untargeted
            = (first'.play layer actions').documents layer i' Event.untargeted
          ∧ ((first.play layer actions).documents layer i id
              = (first'.play layer actions').documents layer i' id
            ↔ (first.play layer actions).eventsOf i = []
              ∨ job.request.target.text = job'.request.target.text)) := by
  have hevents := untimed_eventsOf_play layer hfirst hnone actions
  have hevents' := untimed_eventsOf_play layer hfirst' hnone' actions'
  rw [← halike.demandsOf_eq, ← hsights] at hevents'
  refine ⟨?_, ?_⟩
  . rw [documents_of_untimed hevents, documents_of_untimed hevents', List.map_map, List.map_map]
    exact List.map_congr_left fun told _ => halike.toJson?_untargeted_untagged_eq hhash told
  . intro htag
    refine ⟨?_, ?_⟩
    . rw [documents_of_untimed hevents, documents_of_untimed hevents', List.map_map, List.map_map]
      exact List.map_congr_left fun told _ => halike.toJson?_untargeted_eq hhash htag told
    . have hnil : (first.play layer actions).eventsOf i = []
          ↔ Stage.arriving.tellings layer (layer.demandsOf job) (first.sights layer i actions) = [] := by
        rw [← List.map_eq_nil_iff, hevents, List.map_eq_nil_iff]
      rw [hnil, documents_of_untimed hevents, documents_of_untimed hevents', List.map_map, List.map_map,
        List.map_inj_left]
      constructor
      . intro hsame
        rw [or_iff_not_imp_left]
        intro hne
        obtain ⟨told, hmem⟩ := List.exists_mem_of_ne_nil _ hne
        exact (halike.toJson?_eq_iff hhash htag told).1 (hsame told hmem)
      . rintro (hempty | htext) told hmem
        . rw [hempty] at hmem
          nomatch hmem
        . exact (halike.toJson?_eq_iff hhash htag told).2 htext

end

def uriText? (document : Option Json) : Option String :=
  match document.bind (Json.field? "uri") with
  | some (.string text) => some text
  | _ => none

def Layer.logging : Layer :=
  { Layer.sample false with events := ⟨true, 1, true⟩ }

def Job.forTarget (target : String) : Job :=
  ⟨⟨"GET", .ofText target.toList, []⟩, ⟨none, none, 0, fun _ => .ok .empty⟩⟩

def requestFor (target : String) : Cache MemoryStore :=
  ((start MemoryStore.empty .epoch .epoch).enlist (.forTarget target)).1

theorem alike_forTarget {target target' : String}
    (hkey : Layer.logging.keyOf (.forTarget target) = Layer.logging.keyOf (.forTarget target')) :
    Alike .logging 0 (.forTarget target) 0 (.forTarget target') where
  requestId_eq := rfl
  method_eq := rfl
  hashKey_eq := congrArg (Option.map hashKey) hkey
  directives_eq := rfl
  conditions_eq := rfl

/-- Requests whose queries are in different orders share their key, and log the same but for their targets. -/
theorem documents_eq_of_reorderedQuery :
    Alike .logging 0 (.forTarget "/?a=1&b=2") 0 (.forTarget "/?b=2&a=1")
      ∧ ((requestFor "/?a=1&b=2").play .logging (List.replicate 7 (.step 0))).eventsOf 0 ≠ []
      ∧ ((requestFor "/?a=1&b=2").play .logging (List.replicate 7 (.step 0))).documents .logging 0
          Event.untargeted
        = ((requestFor "/?b=2&a=1").play .logging (List.replicate 7 (.step 0))).documents .logging 0
          Event.untargeted := by
  have halike : Alike .logging 0 (.forTarget "/?a=1&b=2") 0 (.forTarget "/?b=2&a=1") :=
    alike_forTarget (by decide +kernel)
  have hsights : (requestFor "/?a=1&b=2").sights .logging 0 (List.replicate 7 (.step 0))
      = (requestFor "/?b=2&a=1").sights .logging 0 (List.replicate 7 (.step 0)) := by
    decide +kernel
  have htag : Layer.logging.tagKey (.forTarget "/?a=1&b=2") = Layer.logging.tagKey (.forTarget "/?b=2&a=1") := by
    decide +kernel
  obtain ⟨-, hdocuments⟩ := documents_eq_of_alike halike rfl rfl rfl rfl rfl hsights
  exact ⟨halike, by decide +kernel, (hdocuments htag).1⟩

/-- The targets of such requests can be read in what they log, in spite of the hashed keys. -/
theorem documents_ne_of_reorderedQuery :
    Layer.logging.events.hashKeys = true
      ∧ Alike .logging 0 (.forTarget "/?a=1&b=2") 0 (.forTarget "/?b=2&a=1")
      ∧ (requestFor "/?a=1&b=2").sights .logging 0 (List.replicate 7 (.step 0))
        = (requestFor "/?b=2&a=1").sights .logging 0 (List.replicate 7 (.step 0))
      ∧ ((requestFor "/?a=1&b=2").play .logging (List.replicate 7 (.step 0))).documents .logging 0 id
        ≠ ((requestFor "/?b=2&a=1").play .logging (List.replicate 7 (.step 0))).documents .logging 0 id := by
  refine ⟨rfl, alike_forTarget (by decide +kernel), by decide +kernel, ?_⟩
  have htexts : (((requestFor "/?a=1&b=2").play .logging (List.replicate 7 (.step 0))).documents .logging 0
      id).map uriText?
        ≠ (((requestFor "/?b=2&a=1").play .logging (List.replicate 7 (.step 0))).documents .logging 0
          id).map uriText? := by
    decide +kernel
  exact fun heq => htexts (congrArg (List.map uriText?) heq)

end ResponseCache
