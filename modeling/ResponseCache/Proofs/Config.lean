import ResponseCache.Config
import ResponseCache.Proofs.Duration.HumanText
import ResponseCache.Proofs.Json.Record

/-!
This module contains the proof that configurations survive being written: what is decoded from the document of a
configuration, be it its text or its value in memory, is the configuration.
-/

namespace ResponseCache

open Json (Origin Taken Writable)

theorem Duration.decode_toJson (d : Duration) : Duration.decode d.toJson = .ok d := by
  unfold Duration.decode Duration.toJson
  simp only [String.toList_ofList, ofHumanText_humanText]

namespace Age

/-- The fields of an age as they were read, if those of the given names were. -/
def taken (a : Age) (names : List String) : AgeFields where
  min := if "min" ∈ names then some a.min else none
  max := if "max" ∈ names then some a.max else none

theorem toAge_taken {a : Age} {names : List String} (h : names.Perm ["min", "max"]) : (a.taken names).toAge = a := by
  simp [taken, AgeFields.toAge, h.mem_iff]

theorem taken_fields (a : Age) :
    ∀ f ∈ [("min", a.min.toJson), ("max", a.max.toJson)], Taken decoder a.taken f ∧ Writable f.2 := by
  simp only [List.forall_mem_cons, List.not_mem_nil, false_implies, implies_true, and_true]
  refine ⟨⟨?min, .string _⟩, ?max, .string _⟩
  all_goals
    intro names hnew
    simp [decoder, AgeFields.field, taken, Json.once, hnew, Duration.decode_toJson, bind, Except.bind, pure,
      Except.pure]

theorem decode_written (a : Age) (origin : Origin) : decode (.written a.toJson origin) = .ok a := by
  obtain ⟨names, hnames, hdecoded⟩ := Json.exists_decode_written a.taken_fields (by simp) origin
  have hempty : a.taken [] = .empty := rfl
  rw [hempty] at hdecoded
  unfold decode toJson
  rw [hdecoded]
  exact congrArg Except.ok (toAge_taken hnames)

end Age

namespace RouteConfig

section Statuses

variable (statuses : Option StatusSet)

theorem decode_statuses :
    Json.decodeOptional (Json.decodeList Json.decodeWord16) (.optional (fun s => .list (s.toList.map .nat)) statuses)
      = .ok (statuses.map StatusSet.codes) := by
  apply Json.decodeOptional_optional
  . intro s
    have hcode : ∀ n : Word16, Json.decodeWord16 (.nat n.val) = .ok n := fun n => dif_pos n.isLt
    unfold StatusSet.toList
    rw [List.map_map]
    exact Json.decodeList_list hcode s.codes
  . exact fun s heq => nomatch heq

theorem map_ofList_codes : statuses.map (StatusSet.ofList ∘ StatusSet.codes) = statuses := by
  have hid : StatusSet.ofList ∘ StatusSet.codes = id := funext StatusSet.ofList_codes
  rw [hid, Option.map_id]
  rfl

theorem writable_statuses : Writable (.optional (fun s => .list (s.toList.map .nat)) statuses) := by
  cases statuses with
  | none => exact .null
  | some s =>
    apply Writable.list
    intro v hv
    obtain ⟨n, hn, rfl⟩ := List.mem_map.1 hv
    obtain ⟨code, -, rfl⟩ := List.mem_map.1 hn
    exact .nat (Nat.lt_trans code.isLt (by decide))

end Statuses

section VaryHeaders

variable (names : List String)

theorem decode_varyHeaders : Json.decodeList Json.decodeString (.list (names.map .string)) = .ok names := by
  have hname : ∀ name, Json.decodeString (.string name) = .ok name := fun _ => rfl
  exact Json.decodeList_list hname names

theorem writable_varyHeaders : Writable (.list (names.map .string)) := by
  apply Writable.list
  intro v hv
  obtain ⟨name, -, rfl⟩ := List.mem_map.1 hv
  exact .string name

end VaryHeaders

/-- The fields of a configuration as they were read, if those of the given names were. -/
def taken (c : RouteConfig) (names : List String) : RouteConfigFields where
  minAge := if "min_age" ∈ names then some c.minAge else none
  maxAge := if "max_age" ∈ names then some c.maxAge else none
  statuses := if "statuses" ∈ names then some c.statuses else none
  varyHeaders := if "vary_headers" ∈ names then some c.varyHeaders else none
  singleFlight := if "single_flight" ∈ names then some c.singleFlight else none

theorem toConfig_taken {c : RouteConfig} {names : List String}
    (h : names.Perm ["min_age", "max_age", "statuses", "vary_headers", "single_flight"]) :
    (c.taken names).toConfig = c := by
  simp [taken, RouteConfigFields.toConfig, h.mem_iff]

theorem taken_fields (c : RouteConfig) :
    ∀ f ∈
      [("min_age", c.minAge.toJson),
       ("max_age", c.maxAge.toJson),
       ("statuses", .optional (fun s => .list (s.toList.map .nat)) c.statuses),
       ("vary_headers", .list (c.varyHeaders.map .string)),
       ("single_flight", .bool c.singleFlight)],
      Taken decoder c.taken f ∧ Writable f.2 := by
  simp only [List.forall_mem_cons, List.not_mem_nil, false_implies, implies_true, and_true]
  refine ⟨⟨?minAge, .string _⟩, ⟨?maxAge, .string _⟩, ⟨?statuses, writable_statuses _⟩,
    ⟨?varyHeaders, writable_varyHeaders _⟩, ?singleFlight, .bool _⟩
  all_goals
    intro names hnew
    simp [decoder, RouteConfigFields.field, taken, Json.once, hnew, Duration.decode_toJson, decode_statuses,
      map_ofList_codes, decode_varyHeaders, Json.decodeBool, bind, Except.bind, pure, Except.pure]

theorem decode_written (c : RouteConfig) (origin : Origin) : decode (.written c.toJson origin) = .ok c := by
  obtain ⟨names, hnames, hdecoded⟩ := Json.exists_decode_written c.taken_fields (by simp) origin
  have hempty : c.taken [] = .empty := rfl
  rw [hempty] at hdecoded
  unfold decode toJson
  rw [hdecoded]
  exact congrArg Except.ok (toConfig_taken hnames)

end RouteConfig

/--
Configurations and ages are decoded from what is written of them. Their durations are written as numbers of units:
none of the numbers is zero, each unit is counted as often as it fits, and together they are the duration.
-/
theorem configuration_survives_writing :
    (∀ (c : RouteConfig) (origin : Origin), RouteConfig.decode (.written c.toJson origin) = .ok c)
      ∧ (∀ (a : Age) (origin : Origin), Age.decode (.written a.toJson origin) = .ok a)
      ∧ ∀ d : Duration,
        d.toJson = .string (String.ofList d.humanText)
          ∧ d.humanText = (if d.isZero then ['0', 's']
            else List.intercalate [' '] (d.shownParts.map Duration.Part.spelled))
          ∧ (∀ p ∈ d.shownParts, p.count ≠ 0 ∧ p.unit ∈ Duration.writtenUnits)
          ∧ (∀ before p after, d.shownParts = before ++ p :: after →
            Duration.Part.total after < p.unit.measure.size)
          ∧ Duration.Part.total d.shownParts = d.nanos
          ∧ Duration.ofHumanText d.humanText = .ok d := by
  refine ⟨RouteConfig.decode_written, Age.decode_written, fun d => ⟨rfl, d.humanText_eq, ?_, ?_, ?_, ?_⟩⟩
  . exact fun p => Duration.of_mem_shownParts
  . exact fun before p after => Duration.total_lt_of_shownParts
  . exact d.total_shownParts
  . exact d.ofHumanText_humanText

end ResponseCache
