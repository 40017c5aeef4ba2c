import ResponseCache.Proofs.Freshness
import ResponseCache.Proofs.Layer.Response
import ResponseCache.Proofs.Layer.Run

/-!
This module contains how far a response without body says the same about its caching as the whole one
that it stands for. Both have the tag of the entry, but the short one has nothing of the fields of the
entry: caching directives of the entry's own are replaced by its lifetime.
-/

namespace ResponseCache

/-- A request without what it says about representations that the client has already. -/
def Request.unconditional (r : Request) : Request :=
  { r with headers := r.headers.filter fun (name, _) => name.text ≠ "if-none-match" }

def Job.unconditional (job : Job) : Job :=
  { job with request := job.request.unconditional }

theorem Headers.getAll_filter_ne (headers : Headers) {name other : String} (hne : other ≠ name) :
    getAll (headers.filter fun (n, _) => n.text ≠ name) other = headers.getAll other := by
  unfold getAll
  rw [List.filter_filter]
  congr 1
  apply List.filter_congr
  rintro ⟨n, v⟩ -
  by_cases hn : n.text = other
  . simp [hn, hne]
  . simp [hn]

theorem Headers.getAll_filter_self (headers : Headers) (name : String) :
    getAll (headers.filter fun (n, _) => n.text ≠ name) name = [] := by
  unfold getAll
  rw [List.map_eq_nil_iff, List.filter_filter, List.filter_eq_nil_iff]
  rintro ⟨n, v⟩ -
  by_cases hn : n.text = name <;> simp [hn]

namespace Layer

theorem directivesOf_unconditional (job : Job) : directivesOf job.unconditional = directivesOf job := by
  unfold directivesOf Directives.ofHeaders Job.unconditional Request.unconditional
  simp only
  rw [Headers.getAll_filter_ne _ (by decide)]

variable {l : Layer} {job : Job} {entry : Entry} {now : Time}

theorem not_isRevalidated_unconditional (job : Job) (entry : Entry) :
    serve.isRevalidated job.unconditional entry = false := by
  unfold serve.isRevalidated Job.unconditional Request.unconditional
  simp only
  rw [Headers.getAll_filter_self]
  unfold EntityTag.isNamed
  exact Bool.and_false _

theorem headers_serve_of_isRevalidated (h : serve.isRevalidated job entry = true) :
    (l.serve job entry now).headers
      = setMaxAge (Entry.setTag [] entry.etag)
          (Freshness.evaluate entry.lastValid l.policy .none now).remaining := by
  unfold serve
  simp only [h, if_true]

theorem headers_serve_of_not_isRevalidated (h : serve.isRevalidated job entry = false) :
    (l.serve job entry now).headers
      = setMaxAge (Entry.setTag entry.fields entry.etag)
          (Freshness.evaluate entry.lastValid l.policy .none now).remaining := by
  unfold serve
  simp only [h, Bool.false_eq_true, if_false, Entry.toResponse_headers]

theorem getAll_cacheControl_serve_of_isRevalidated (h : serve.isRevalidated job entry = true) :
    (l.serve job entry now).headers.getAll "cache-control"
      = [.maxAge (Freshness.evaluate entry.lastValid l.policy .none now).remaining] := by
  rw [headers_serve_of_isRevalidated h]
  apply getAll_cacheControl_setMaxAge_of_nil
  rw [getAll_setTag_of_ne _ _ (by decide), Headers.getAll_nil]

theorem getAll_cacheControl_serve_of_nil
    (hnil : entry.fields.getAll "cache-control" = []) :
    (l.serve job entry now).headers.getAll "cache-control"
      = [.maxAge (Freshness.evaluate entry.lastValid l.policy .none now).remaining] := by
  cases h : serve.isRevalidated job entry with
  | true => exact getAll_cacheControl_serve_of_isRevalidated h
  | false =>
    rw [headers_serve_of_not_isRevalidated h]
    apply getAll_cacheControl_setMaxAge_of_nil
    rw [getAll_setTag_of_ne _ _ (by decide), hnil]

theorem getAll_cacheControl_serve_of_ne_nil (h : serve.isRevalidated job entry = false)
    (hne : entry.fields.getAll "cache-control" ≠ []) :
    (l.serve job entry now).headers.getAll "cache-control"
      = entry.fields.getAll "cache-control" := by
  have hsame : (Entry.setTag entry.fields entry.etag).getAll "cache-control"
      = entry.fields.getAll "cache-control" :=
    getAll_setTag_of_ne _ _ (by decide)
  rw [headers_serve_of_not_isRevalidated h, ← hsame]
  apply getAll_cacheControl_setMaxAge_of_ne_nil
  rw [hsame]
  exact hne

theorem getAll_cacheControl_serve_eq_iff (h : serve.isRevalidated job entry = true) :
    (l.serve job entry now).headers.getAll "cache-control"
        = (l.serve job.unconditional entry now).headers.getAll "cache-control"
      ↔ entry.fields.getAll "cache-control" = []
        ∨ entry.fields.getAll "cache-control"
          = [.maxAge (Freshness.evaluate entry.lastValid l.policy .none now).remaining] := by
  rw [getAll_cacheControl_serve_of_isRevalidated h]
  by_cases hnil : entry.fields.getAll "cache-control" = []
  . rw [getAll_cacheControl_serve_of_nil hnil]
    simp only [hnil, true_or]
  . rw [getAll_cacheControl_serve_of_ne_nil (not_isRevalidated_unconditional job entry) hnil]
    simp only [hnil, false_or]
    exact eq_comm

theorem getAll_etag_serve_eq_iff (h : serve.isRevalidated job entry = true) :
    (l.serve job entry now).headers.getAll "etag"
        = (l.serve job.unconditional entry now).headers.getAll "etag"
      ↔ (HeaderValue.ofString? entry.etag).isSome = true ∨ entry.fields.getAll "etag" = [] := by
  cases hvalue : HeaderValue.ofString? entry.etag with
  | some value =>
    rw [getAll_etag_serve hvalue, getAll_etag_serve hvalue]
    simp only [Option.isSome_some, true_or]
  | none =>
    rw [headers_serve_of_isRevalidated h,
      headers_serve_of_not_isRevalidated (not_isRevalidated_unconditional job entry),
      getAll_setMaxAge _ _ (by decide), getAll_setMaxAge _ _ (by decide),
      setTag_of_ofString?_eq_none hvalue, setTag_of_ofString?_eq_none hvalue, Headers.getAll_nil]
    simp only [Option.isSome_none, Bool.false_eq_true, false_or]
    exact eq_comm

/--
A client that has the representation already is told the same about its caching as it would be with the
whole response, except where the entry has caching directives of its own: these are lost, unless they
are just the lifetime that takes their place. The tags differ only where that of the entry cannot be
sent, but the entry has a field of the same name.
-/
theorem serve_eq_unconditional_iff
    (hhit : decideRequest (some entry) l.policy (directivesOf job) now = .hit)
    (hstatus : entry.status.isSuccess = true)
    (hnamed : EntityTag.isNamed (job.request.headers.getAll "if-none-match") entry.etag = true) :
    decideRequest (some entry) l.policy (directivesOf job.unconditional) now = .hit
      ∧ (l.serve job entry now).status = .notModified
      ∧ (l.serve job.unconditional entry now).status = entry.status
      ∧ ((l.serve job entry now).headers.getAll "etag"
            = (l.serve job.unconditional entry now).headers.getAll "etag"
          ↔ (HeaderValue.ofString? entry.etag).isSome = true ∨ entry.fields.getAll "etag" = [])
      ∧ ((l.serve job entry now).headers.getAll "cache-control"
            = (l.serve job.unconditional entry now).headers.getAll "cache-control"
          ↔ entry.fields.getAll "cache-control" = []
            ∨ entry.fields.getAll "cache-control"
              = [.maxAge (Freshness.evaluate entry.lastValid l.policy .none now).remaining]) := by
  have hrevalidated : serve.isRevalidated job entry = true := by
    unfold serve.isRevalidated
    rw [hstatus, hnamed]
    rfl
  refine ⟨?_, ?_, ?_, ?_, ?_⟩
  . rw [directivesOf_unconditional]
    exact hhit
  . exact (serve_of_isRevalidated hrevalidated).1
  . exact (serve_of_not_isRevalidated (not_isRevalidated_unconditional job entry)).1
  . exact getAll_etag_serve_eq_iff hrevalidated
  . exact getAll_cacheControl_serve_eq_iff hrevalidated

end Layer

/-- A request of a client that is content with any representation that it has already. -/
def revalidation : Job :=
  { Job.sample 0 (.error "") with
    request := ⟨"GET", .ofPath ['/'], [(⟨"if-none-match", by decide⟩, ⟨[0x2a], by decide⟩)]⟩ }

def freshEntry (directives : Option String) : Entry :=
  ⟨.ok, directives.toList.map fun text => ("cache-control", Bytes.Utf8.encode text.toList), [],
    .epoch, "\"a\""⟩

/-- Without directives of the entry's own, the client is told the same with and without the body. -/
theorem serve_freshEntry_eq_unconditional :
    decideRequest (some (freshEntry none)) (Layer.sample false).policy (Layer.directivesOf revalidation)
        .epoch = .hit
      ∧ (freshEntry none).status.isSuccess = true
      ∧ EntityTag.isNamed (revalidation.request.headers.getAll "if-none-match")
        (freshEntry none).etag = true
      ∧ ((Layer.sample false).serve revalidation (freshEntry none) .epoch).headers.getAll "etag"
        = ((Layer.sample false).serve revalidation.unconditional (freshEntry none)
          .epoch).headers.getAll "etag"
      ∧ ((Layer.sample false).serve revalidation (freshEntry none) .epoch).headers.getAll
          "cache-control"
        = ((Layer.sample false).serve revalidation.unconditional (freshEntry none)
          .epoch).headers.getAll "cache-control" := by
  have hhit : decideRequest (some (freshEntry none)) (Layer.sample false).policy
      (Layer.directivesOf revalidation) .epoch = .hit := by
    decide +kernel
  have hnamed : EntityTag.isNamed (revalidation.request.headers.getAll "if-none-match")
      (freshEntry none).etag = true := by
    decide +kernel
  have hfields : (freshEntry none).fields = [] := rfl
  obtain ⟨-, -, -, hetag, hcontrol⟩ := Layer.serve_eq_unconditional_iff hhit rfl hnamed
  rw [hfields] at hetag hcontrol
  exact ⟨hhit, rfl, hnamed, hetag.2 (.inr rfl), hcontrol.2 (.inl rfl)⟩

/-- An entry for private caches only: a client that has it already is told that any may keep it. -/
theorem serve_freshEntry_ne_unconditional :
    decideRequest (some (freshEntry "private")) (Layer.sample false).policy
        (Layer.directivesOf revalidation) .epoch = .hit
      ∧ (freshEntry "private").status.isSuccess = true
      ∧ EntityTag.isNamed (revalidation.request.headers.getAll "if-none-match")
        (freshEntry "private").etag = true
      ∧ ((Layer.sample false).serve revalidation (freshEntry "private") .epoch).headers.getAll
          "cache-control"
        ≠ ((Layer.sample false).serve revalidation.unconditional (freshEntry "private")
          .epoch).headers.getAll "cache-control"
      ∧ (((Layer.sample false).serve revalidation (freshEntry "private") .epoch).headers.getAll
          "cache-control").map HeaderValue.text? = [some "max-age=60".toList]
      ∧ (((Layer.sample false).serve revalidation.unconditional (freshEntry "private")
          .epoch).headers.getAll "cache-control").map HeaderValue.text?
        = [some "private".toList] := by
  decide +kernel

end ResponseCache
