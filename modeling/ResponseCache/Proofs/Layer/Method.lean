import ResponseCache.Proofs.Key.Query
import ResponseCache.Proofs.Layer.Provenance

/-!
This module contains what the method of a request has to do with the entries that it is answered from. All
keys are for two methods, of which one asks for responses without body. A key that starts with the method
keeps their responses apart, and the other built-in keys do not: under these, who asks with one method is
served what was answered to the other.
-/

namespace ResponseCache

open Cache Backend.Faithful

/-- The bases of keys that are made of the target of a request, for the cached methods alone. -/
def BaseKey.builtIn : List BaseKey :=
  [.methodPathAndQuery, .pathAndQuery, .path]

section

variable {k : KeyExtractor} {r r' : Request} {key : String}

theorem BaseKey.extract_eq_some {b : BaseKey} (hbuiltIn : b ∈ builtIn) {base : List Char}
    (h : b.extract r = some base) :
    r.isCacheable = true ∧ (b = .methodPathAndQuery →
      base = r.method.toList ++ ' ' :: pathWithQuery r.target.path (normalQuery r.target.query)) := by
  simp only [builtIn, List.mem_cons, List.not_mem_nil, or_false] at hbuiltIn
  obtain rfl | rfl | rfl := hbuiltIn
  . simp only [extract, Option.ite_none_right_eq_some, Option.some.injEq] at h
    exact ⟨h.1, fun _ => h.2.symm⟩
  . simp only [extract, Option.ite_none_right_eq_some] at h
    exact ⟨h.1, nofun⟩
  . simp only [extract, Option.ite_none_right_eq_some] at h
    exact ⟨h.1, nofun⟩

namespace KeyExtractor

theorem extract_eq_some (h : k.extract r = some key) :
    ∃ base, k.base.extract r = some base ∧ key.toList = base ++ components r.headers k.names := by
  unfold extract at h
  rw [extractText_eq, Option.map_map] at h
  obtain ⟨base, hbase, rfl⟩ := Option.map_eq_some_iff.1 h
  exact ⟨base, hbase, String.toList_ofList⟩

theorem isCacheable_of_extract (hbuiltIn : k.base ∈ BaseKey.builtIn) (h : k.extract r = some key) :
    r.isCacheable = true := by
  obtain ⟨base, hbase, -⟩ := extract_eq_some h
  exact (BaseKey.extract_eq_some hbuiltIn hbase).1

/-- A key that starts with the method tells it. -/
theorem method_eq_of_extract (hbase : k.base = .methodPathAndQuery) (h : k.extract r = some key)
    (h' : k.extract r' = some key) : r.method = r'.method := by
  have hbuiltIn : k.base ∈ BaseKey.builtIn := by
    rw [hbase]
    exact List.mem_cons_self
  have hcacheable := isCacheable_of_extract hbuiltIn h
  have hcacheable' := isCacheable_of_extract hbuiltIn h'
  obtain ⟨base, hr, hkey⟩ := extract_eq_some h
  obtain ⟨base', hr', hkey'⟩ := extract_eq_some h'
  have htext := (BaseKey.extract_eq_some hbuiltIn hr).2 hbase
  have htext' := (BaseKey.extract_eq_some hbuiltIn hr').2 hbase
  rw [hkey, htext, htext', List.append_assoc, List.append_assoc] at hkey'
  apply String.toList_inj.1
  exact (Text.append_sep_inj (r.not_mem_method_of_isCacheable hcacheable)
    (r'.not_mem_method_of_isCacheable hcacheable') hkey').1

/-- A key that does not start with the method is the same for both methods. -/
theorem extract_eq_of_target_eq (hbuiltIn : k.base ∈ BaseKey.builtIn) (hbase : k.base ≠ .methodPathAndQuery)
    (hcacheable : r.isCacheable = true) (hcacheable' : r'.isCacheable = true)
    (htarget : r.target = r'.target) (hheaders : r.headers = r'.headers) : k.extract r = k.extract r' := by
  have hsame : k.base.extract r = k.base.extract r' := by
    simp only [BaseKey.builtIn, List.mem_cons, List.not_mem_nil, or_false, hbase, false_or] at hbuiltIn
    obtain hpath | hpath := hbuiltIn
    . rw [hpath]
      simp only [BaseKey.extract, hcacheable, hcacheable', htarget]
    . rw [hpath]
      simp only [BaseKey.extract, hcacheable, hcacheable', htarget]
  unfold extract
  rw [extractText_eq, extractText_eq, hsame, hheaders]

end KeyExtractor

end

section

variable {σ : Type} [Backend σ] [Backend.Faithful σ] {layer : Layer} {c : Cache σ} {i : Nat} {task : Task}

/-- A response that is served from the store to a request, and the one whose handler answered with it. -/
def Relayed (layer : Layer) (c : Cache σ) (i : Nat) (job : Job) (response : Response) (source : Job) : Prop :=
  ∃ key found j entry success, layer.keyOf job = some key
    ∧ Origin layer c j source key entry
      [⟨j, .wrote key entry layer.policy.maxTtl success⟩, ⟨i, .read key (.ok (some found))⟩,
        ⟨i, .counted .hit⟩]
    ∧ found = kept σ entry
    ∧ Replays job entry response

/-- What the methods of a request and of the one whose response it is served have to do with each other. -/
structure Kindred (layer : Layer) (job source : Job) : Prop where
  keyOf_eq : layer.keyOf source = layer.keyOf job
  isCacheable_eq : source.request.isCacheable = true
  method_eq : layer.extractor.base = .methodPathAndQuery → source.request.method = job.request.method

theorem Relayed.kindred {job source : Job} {response : Response}
    (hbuiltIn : layer.extractor.base ∈ BaseKey.builtIn) (h : Relayed layer c i job response source) :
    Kindred layer job source := by
  obtain ⟨key, found, j, entry, success, hkey, horigin, -⟩ := h
  constructor
  . rw [hkey, horigin.key_eq]
  . exact KeyExtractor.isCacheable_of_extract hbuiltIn horigin.key_eq
  . intro hbase
    exact KeyExtractor.method_eq_of_extract hbase horigin.key_eq hkey

theorem Traceable.exists_kindred (hc : Traceable layer c) (hbuiltIn : layer.extractor.base ∈ BaseKey.builtIn)
    (hget : c.tasks[i]? = some task) {response : Response}
    (hphase : task.phase = .done (.response .hit response)) :
    ∃ source, Relayed layer c i task.job response source ∧ Kindred layer task.job source := by
  obtain ⟨key, found, j, source, entry, success, hsource⟩ := hc.provenance hget hphase
  have hrelayed : Relayed layer c i task.job response source := ⟨key, found, j, entry, success, hsource⟩
  exact ⟨source, hrelayed, hrelayed.kindred hbuiltIn⟩

end

/--
With a built-in extractor, whatever is served from a store in memory or on a server goes back to a request
with the same key and one of the cached methods. It is the same method if keys start with it; otherwise two
requests with the cached methods have the same key as soon as they agree in target and header fields.
-/
theorem method_of_reachable {layer : Layer} (hbuiltIn : layer.extractor.base ∈ BaseKey.builtIn)
    (clock systemTime : Time) :
    (∀ {c : Cache (Unreliable MemoryStore)} {i : Nat} {task : Task} {response : Response},
        Reachable layer Loses (start (.working .empty) clock systemTime) c →
        c.tasks[i]? = some task → task.phase = .done (.response .hit response) →
        ∃ source, Relayed layer c i task.job response source ∧ Kindred layer task.job source)
      ∧ (∀ (keyspace : String) {c : Cache (Unreliable RedisStore)} {i : Nat} {task : Task}
          {response : Response},
        Reachable layer Loses (start (.working (.empty keyspace)) clock systemTime) c →
        c.tasks[i]? = some task → task.phase = .done (.response .hit response) →
        ∃ source, Relayed layer c i task.job response source ∧ Kindred layer task.job source)
      ∧ (layer.extractor.base ≠ .methodPathAndQuery → ∀ {job job' : Job},
        job.request.isCacheable = true → job'.request.isCacheable = true →
        job.request.target = job'.request.target → job.request.headers = job'.request.headers →
        layer.keyOf job = layer.keyOf job') := by
  refine ⟨?_, ?_, ?_⟩
  . intro c i task response hreach hget hphase
    have hstart : Traceable layer (start (Unreliable.working MemoryStore.empty) clock systemTime) :=
      .start MemoryStore.not_holds_empty clock systemTime
    exact (hreach.invariant hstart Traceable.move).exists_kindred hbuiltIn hget hphase
  . intro keyspace c i task response hreach hget hphase
    have hstart : Traceable layer (start (Unreliable.working (RedisStore.empty keyspace)) clock systemTime) :=
      .start (RedisStore.not_holds_empty keyspace) clock systemTime
    exact (hreach.invariant hstart Traceable.move).exists_kindred hbuiltIn hget hphase
  . intro hbase job job' hcacheable hcacheable' htarget hheaders
    exact KeyExtractor.extract_eq_of_target_eq hbuiltIn hbase hcacheable hcacheable' htarget hheaders

def Layer.sampleOfPaths : Layer :=
  { Layer.sample false with extractor := ⟨.path, []⟩ }

def Reply.small : Reply :=
  ⟨.ok, [], [.data [1]], by decide⟩

def headThenGet {σ : Type} [Backend σ] (store : σ) : Cache σ :=
  let head : Job := ⟨⟨"HEAD", .ofPath ['/'], []⟩, (Job.sample 0 (.ok .empty)).handler⟩
  ((start store .epoch .epoch).request .sampleOfPaths head).1.request .sampleOfPaths (.sample 0 (.ok .small))
    |>.1

theorem reachable_headThenGet {σ : Type} [Backend σ] (drift : σ → σ → Prop) (store : σ) :
    Reachable .sampleOfPaths drift (start store .epoch .epoch) (headThenGet store) :=
  (Reachable.start.request _).request _

/--
The second of two requests is served what was answered to the first, which has the same method if the key
tells it.
-/
theorem method_of_twoRequests :
    (∃ task response source,
        (headThenGet (Unreliable.working MemoryStore.empty)).tasks[1]? = some task
          ∧ task.phase = .done (.response .hit response)
          ∧ Relayed .sampleOfPaths (headThenGet (Unreliable.working MemoryStore.empty)) 1 task.job response
            source
          ∧ Kindred .sampleOfPaths task.job source)
      ∧ (∃ task response source,
        (twoRequests (Unreliable.working (RedisStore.empty "a"))).tasks[1]? = some task
          ∧ task.phase = .done (.response .hit response)
          ∧ Relayed (.sample false) (twoRequests (Unreliable.working (RedisStore.empty "a"))) 1 task.job
            response source
          ∧ source.request.method = task.job.request.method)
      ∧ Layer.sampleOfPaths.keyOf ⟨⟨"HEAD", .ofPath ['/'], []⟩, (Job.sample 0 (.ok .empty)).handler⟩
        = Layer.sampleOfPaths.keyOf (.sample 0 (.ok .small)) := by
  have hpaths : Layer.sampleOfPaths.extractor.base ∈ BaseKey.builtIn := by
    simp [BaseKey.builtIn, Layer.sampleOfPaths]
  have hstandard : (Layer.sample false).extractor.base ∈ BaseKey.builtIn := List.mem_cons_self
  refine ⟨?_, ?_, ?_⟩
  . have hhit : ((headThenGet (Unreliable.working MemoryStore.empty)).tasks[1]?.bind Task.hit?).isSome
        = true := by
      decide +kernel
    obtain ⟨task, response, hget, hphase⟩ := exists_of_isSome_hit? hhit
    have hreach := reachable_headThenGet Loses (Unreliable.working MemoryStore.empty)
    obtain ⟨source, hsource⟩ := (method_of_reachable hpaths .epoch .epoch).1 hreach hget hphase
    exact ⟨task, response, source, hget, hphase, hsource⟩
  . have hhit : ((twoRequests (Unreliable.working (RedisStore.empty "a"))).tasks[1]?.bind
        Task.hit?).isSome = true := by
      decide +kernel
    obtain ⟨task, response, hget, hphase⟩ := exists_of_isSome_hit? hhit
    have hreach := reachable_twoRequests Loses (Unreliable.working (RedisStore.empty "a"))
    obtain ⟨source, hsource, hkindred⟩ :=
      (method_of_reachable hstandard .epoch .epoch).2.1 "a" hreach hget hphase
    exact ⟨task, response, source, hget, hphase, hsource, hkindred.method_eq rfl⟩
  . exact (method_of_reachable hpaths .epoch .epoch).2.2 nofun rfl rfl rfl rfl

theorem Task.phase_of_hit? {t : Task} {response : Response} (h : t.hit? = some response) :
    t.phase = .done (.response .hit response) := by
  unfold hit? at h
  split at h
  next hphase =>
    obtain rfl := Option.some.inj h
    exact hphase
  next => nomatch h

/--
Under keys that leave the method out, a request for a response with its body is served what was answered to a
request for none, without body. Its own handler is not called.
-/
theorem get_of_headThenGet :
    ∃ task response, (headThenGet (Unreliable.working MemoryStore.empty)).tasks[1]? = some task
      ∧ task.job.request.method = "GET"
      ∧ task.phase = .done (.response .hit response) ∧ response.body = []
      ∧ (headThenGet (Unreliable.working MemoryStore.empty)).calls = 1
      ∧ (∃ source,
        Relayed .sampleOfPaths (headThenGet (Unreliable.working MemoryStore.empty)) 1 task.job response source)
      ∧ ∀ source,
        Relayed .sampleOfPaths (headThenGet (Unreliable.working MemoryStore.empty)) 1 task.job response source →
          source.request.method = "HEAD" := by
  have hbody : (((headThenGet (Unreliable.working MemoryStore.empty)).tasks[1]?.bind Task.hit?).map
      Response.body) = some [] := by
    decide +kernel
  have hcallers : (headThenGet (Unreliable.working MemoryStore.empty)).callers = [0] := by decide +kernel
  have hmethods : (headThenGet (Unreliable.working MemoryStore.empty)).jobs.map (fun job => job.request.method)
      = ["HEAD", "GET"] := by
    decide +kernel
  have hmethod {j : Nat} {job : Job}
      (hjob : (headThenGet (Unreliable.working MemoryStore.empty)).jobs[j]? = some job) :
      ["HEAD", "GET"][j]? = some job.request.method := by
    rw [← hmethods, List.getElem?_map, hjob]
    rfl
  obtain ⟨response, hhit, hempty⟩ := Option.map_eq_some_iff.1 hbody
  obtain ⟨task, hget, htask⟩ := Option.bind_eq_some_iff.1 hhit
  have hphase := Task.phase_of_hit? htask
  refine ⟨task, response, hget, ?_, hphase, hempty, by decide +kernel, ?_, ?_⟩
  . exact (Option.some.inj (hmethod (getElem?_jobs hget))).symm
  . have hstart : Traceable .sampleOfPaths (start (Unreliable.working MemoryStore.empty) .epoch .epoch) :=
      .start MemoryStore.not_holds_empty .epoch .epoch
    have hreach := reachable_headThenGet Loses (Unreliable.working MemoryStore.empty)
    obtain ⟨source, hsource, -⟩ := (hreach.invariant hstart Traceable.move).exists_kindred
      (by simp [BaseKey.builtIn, Layer.sampleOfPaths]) hget hphase
    exact ⟨source, hsource⟩
  . intro source hsource
    obtain ⟨key, found, j, entry, success, -, horigin, -⟩ := hsource
    obtain ⟨n, snapshot, generated, hcaller, -⟩ := horigin.answered
    -- Nobody but the first called a handler.
    rw [hcallers] at hcaller
    obtain rfl : j = 0 := (List.mem_singleton.1 (List.mem_of_getElem? hcaller))
    exact (Option.some.inj (hmethod horigin.job_eq)).symm

end ResponseCache
