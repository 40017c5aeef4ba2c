import ResponseCache.Duration.HumanText
import ResponseCache.Proofs.Text.Case
import ResponseCache.Proofs.Text.Pieces

/-!
This module contains the form in which durations are written, and the proof that it is read back: whatever the
years, months and smaller units are into which a duration is cut, their sum is the duration, and no number on
the way to it is too great.
-/

namespace ResponseCache.Duration

open Text (decimal isBlank isDigit ofDigits IsBlank)

def Grain.size : Grain → Nat
  | .secs => nanosPerSec
  | .nanos => 1

def Measure.size (m : Measure) : Nat :=
  m.factor * m.grain.size

structure WrittenUnit where
  one : String
  /-- Its name after any number but one. -/
  many : String
  measure : Measure
  deriving DecidableEq, Repr

/-- The units with which durations are written, the longest first. -/
def writtenUnits : List WrittenUnit :=
  [⟨"year", "years", ⟨31557600, .secs⟩⟩,
   ⟨"month", "months", ⟨2630016, .secs⟩⟩,
   ⟨"day", "days", ⟨86400, .secs⟩⟩,
   ⟨"h", "h", ⟨3600, .secs⟩⟩,
   ⟨"m", "m", ⟨60, .secs⟩⟩,
   ⟨"s", "s", ⟨1, .secs⟩⟩,
   ⟨"ms", "ms", ⟨1000000, .nanos⟩⟩,
   ⟨"us", "us", ⟨1000, .nanos⟩⟩,
   ⟨"ns", "ns", ⟨1, .nanos⟩⟩]

structure Part where
  count : Nat
  unit : WrittenUnit
  deriving DecidableEq, Repr

namespace Part

def name (p : Part) : String :=
  if p.count = 1 then p.unit.one else p.unit.many

def spelled (p : Part) : List Char :=
  decimal p.count ++ p.name.toList

def size (p : Part) : Nat :=
  p.count * p.unit.measure.size

def total : List Part → Nat
  | [] => 0
  | p :: ps => p.size + total ps

theorem total_filter (ps : List Part) : total (ps.filter (·.count ≠ 0)) = total ps := by
  induction ps with
  | nil => rfl
  | cons p ps ih =>
    rw [List.filter_cons]
    split
    next => rw [total, total, ih]
    next hzero =>
      rw [decide_eq_true_eq, not_not] at hzero
      rw [ih, total, size, hzero, Nat.zero_mul, Nat.zero_add]

end Part

/-- The parts of a number of nanoseconds: each unit as often as it fits into what the ones before it leave. -/
def parts : List WrittenUnit → Nat → List Part
  | [], _ => []
  | u :: us, n => ⟨n / u.measure.size, u⟩ :: parts us (n % u.measure.size)

def shownParts (d : Duration) : List Part :=
  (parts writtenUnits d.nanos).filter (·.count ≠ 0)

section Parts

variable {us vs : List WrittenUnit} {u : WrittenUnit} {p : Part} {n : Nat}

/-- Parts down to a unit of one nanosecond leave nothing. -/
theorem total_parts_concat (hu : u.measure.size = 1) : Part.total (parts (us ++ [u]) n) = n := by
  induction us generalizing n with
  | nil => simp [parts, Part.total, Part.size, hu]
  | cons v us ih =>
    rw [List.cons_append, parts, Part.total, ih, Part.size]
    exact Nat.div_add_mod' n v.measure.size

theorem parts_append : parts (us ++ vs) n = parts us n ++ parts vs (us.foldl (· % ·.measure.size) n) := by
  induction us generalizing n with
  | nil => rfl
  | cons u us ih => rw [List.cons_append, parts, ih, parts, List.cons_append, List.foldl_cons]

theorem unit_mem_of_mem_parts (h : p ∈ parts us n) : p.unit ∈ us := by
  induction us generalizing n with
  | nil => cases h
  | cons u us ih =>
    cases List.mem_cons.1 h with
    | inl heq =>
      rw [heq]
      exact List.mem_cons_self
    | inr hmem => exact List.mem_cons_of_mem u (ih hmem)

theorem size_le_of_mem_parts (h : p ∈ parts us n) : p.size ≤ n := by
  induction us generalizing n with
  | nil => cases h
  | cons u us ih =>
    cases List.mem_cons.1 h with
    | inl heq =>
      rw [heq]
      exact Nat.div_mul_le_self n u.measure.size
    | inr hmem => exact Nat.le_trans (ih hmem) (Nat.mod_le n u.measure.size)

theorem total_parts_le : Part.total (parts us n) ≤ n := by
  induction us generalizing n with
  | nil => exact Nat.zero_le n
  | cons u us ih =>
    rw [parts, Part.total, Part.size]
    calc n / u.measure.size * u.measure.size + Part.total (parts us (n % u.measure.size))
      _ ≤ n / u.measure.size * u.measure.size + n % u.measure.size := Nat.add_le_add_left ih _
      _ = n := Nat.div_add_mod' n u.measure.size

/-- What the parts after another add up to is less than one unit more of it. -/
theorem total_lt_of_parts (hpos : ∀ u ∈ us, 0 < u.measure.size) {before after : List Part}
    (h : parts us n = before ++ p :: after) : Part.total after < p.unit.measure.size := by
  induction us generalizing n before with
  | nil => exact absurd h (by simp [parts])
  | cons u us ih =>
    obtain ⟨hu, hpos⟩ := List.forall_mem_cons.1 hpos
    rw [parts] at h
    cases before with
    | nil =>
      obtain ⟨rfl, rfl⟩ := List.cons.inj h
      exact Nat.lt_of_le_of_lt total_parts_le (Nat.mod_lt n hu)
    | cons q before => exact ih hpos (List.cons.inj h).2

/-- What is counted in nanoseconds is less than a second, since whole seconds are cut off before. -/
theorem size_lt_of_mem_parts (h : p ∈ parts writtenUnits n) (hgrain : p.unit.measure.grain = .nanos) :
    p.size < nanosPerSec := by
  have hunits : writtenUnits = writtenUnits.take 6 ++ writtenUnits.drop 6 := rfl
  rw [hunits, parts_append] at h
  cases List.mem_append.1 h with
  | inl hsecs =>
    have hnone : ∀ u ∈ writtenUnits.take 6, u.measure.grain ≠ .nanos := by decide
    exact absurd hgrain (hnone p.unit (unit_mem_of_mem_parts hsecs))
  | inr hnanos =>
    exact Nat.lt_of_le_of_lt (size_le_of_mem_parts hnanos) (Nat.mod_lt _ (by decide))

end Parts

theorem total_shownParts (d : Duration) : Part.total d.shownParts = d.nanos := by
  have hunits : writtenUnits = writtenUnits.dropLast ++ [⟨"ns", "ns", ⟨1, .nanos⟩⟩] := rfl
  rw [shownParts, Part.total_filter, hunits, total_parts_concat rfl]

theorem of_mem_shownParts {d : Duration} {p : Part} (h : p ∈ d.shownParts) :
    p.count ≠ 0 ∧ p.unit ∈ writtenUnits := by
  obtain ⟨hparts, hcount⟩ := List.mem_filter.1 h
  exact ⟨of_decide_eq_true hcount, unit_mem_of_mem_parts hparts⟩

theorem total_lt_of_shownParts {d : Duration} {p : Part} {before after : List Part}
    (h : d.shownParts = before ++ p :: after) : Part.total after < p.unit.measure.size := by
  have hpos : ∀ u ∈ writtenUnits, 0 < u.measure.size := by decide
  obtain ⟨as, bs, hparts, -, hafter⟩ := List.filter_eq_append_iff.1 h
  obtain ⟨cs, ds, rfl, -, -, rfl⟩ := List.filter_eq_cons_iff.1 hafter
  rw [← List.append_assoc] at hparts
  rw [Part.total_filter]
  exact total_lt_of_parts hpos hparts

theorem shownParts_ne_nil {d : Duration} (h : ¬d.isZero) : d.shownParts ≠ [] := by
  intro hnil
  have htotal := total_shownParts d
  rw [hnil] at htotal
  exact h (decide_eq_true htotal.symm)

theorem spelled_filter_parts_cons (u : WrittenUnit) (us : List WrittenUnit) (n : Nat) :
    ((parts (u :: us) n).filter (·.count ≠ 0)).map Part.spelled
      = shortItem (if n / u.measure.size = 1 then u.one else u.many) (n / u.measure.size)
        ++ ((parts us (n % u.measure.size)).filter (·.count ≠ 0)).map Part.spelled := by
  rw [parts, List.filter_cons, shortItem]
  by_cases hzero : n / u.measure.size = 0
  . simp [hzero]
  . simp [hzero, Part.spelled, Part.name]

section Seconds

variable (n factor : Nat)

theorem div_secs : n / (factor * nanosPerSec) = n / nanosPerSec / factor := by
  rw [Nat.mul_comm, Nat.div_div_eq_div_mul]

theorem mod_secs_div : n % (factor * nanosPerSec) / nanosPerSec = n / nanosPerSec % factor :=
  Nat.mod_mul_left_div_self n nanosPerSec factor

theorem mod_secs_mod : n % (factor * nanosPerSec) % nanosPerSec = n % nanosPerSec :=
  Nat.mod_mod_of_dvd n (Nat.dvd_mul_left nanosPerSec factor)

end Seconds

/-- The items of a duration are its parts, though the seconds among them are counted without nanoseconds. -/
theorem humanItems_eq (d : Duration) : d.humanItems = d.shownParts.map Part.spelled := by
  have hsecs (n : Nat) : n % 3600 % 60 = n % 60 := by omega
  have hmicros (n : Nat) : n % 1000000 / 1000 = n / 1000 % 1000 := by omega
  have hnanos (n : Nat) : n % 1000000 % 1000 = n % 1000 := by omega
  unfold shownParts writtenUnits humanItems
  simp only [spelled_filter_parts_cons]
  simp only [parts, longItem, Measure.size, Grain.size, secs, subsecNanos, secsPerYear, secsPerMonth, secsPerDay,
    div_secs, mod_secs_div, mod_secs_mod, Nat.one_mul, Nat.mul_one, Nat.div_one, hsecs, hmicros, hnanos,
    List.append_assoc, ite_self, List.filter_nil, List.map_nil, List.append_nil]
  rfl

/-- A duration is written as its parts, or as no seconds at all. -/
theorem humanText_eq (d : Duration) :
    d.humanText = if d.isZero then ['0', 's'] else List.intercalate [' '] (d.shownParts.map Part.spelled) := by
  rw [humanText, humanItems_eq]

theorem ofNanos?_nanos (d : Duration) : ofNanos? d.nanos = some d :=
  dif_pos d.nanos_lt

theorem addGrains_secs {d sum : Duration} {count : Nat} (hsum : sum.nanos = d.nanos + count * nanosPerSec) :
    d.addGrains count .secs = .ok sum := by
  -- The sum is named before the grain is looked at, or its product would be compared with the bound in unary.
  rw [addGrains.eq_def, ← hsum]
  simp only [ofNanos?_nanos]

theorem addGrains_nanos {d sum : Duration} {count : Nat} (hsum : sum.nanos = d.nanos + count)
    (hcount : d.subsecNanos + count < UInt64.size) : d.addGrains count .nanos = .ok sum := by
  rw [addGrains.eq_def, ← hsum]
  simp only [ofNanos?_nanos, if_pos hcount]

/-- A number of units is added if the sum is a duration. If it is counted in nanoseconds, they are less than a second. -/
theorem addFraction_one {d sum : Duration} {count : Nat} {m : Measure}
    (hsum : sum.nanos = d.nanos + count * m.size) (hsubsec : m.grain = .nanos → count * m.size < nanosPerSec) :
    d.addFraction count 1 m = .ok sum := by
  obtain ⟨factor, grain⟩ := m
  have hadd : count * factor < UInt64.size ∧ d.addGrains (count * factor) grain = .ok sum := by
    cases grain with
    | secs =>
      simp only [Measure.size, Grain.size, ← Nat.mul_assoc] at hsum
      refine ⟨?_, addGrains_secs hsum⟩
      apply Nat.lt_of_mul_lt_mul_right (a := nanosPerSec)
      calc count * factor * nanosPerSec
        _ ≤ sum.nanos := hsum ▸ Nat.le_add_left _ _
        _ < UInt64.size * nanosPerSec := sum.nanos_lt
    | nanos =>
      simp only [Measure.size, Grain.size, Nat.mul_one] at hsum hsubsec
      have hcount := hsubsec trivial
      have hd : d.subsecNanos < nanosPerSec := Nat.mod_lt _ (by decide)
      have htwo : nanosPerSec + nanosPerSec < UInt64.size := by decide
      exact ⟨by omega, addGrains_nanos hsum (by omega)⟩
  simp only [addFraction, Nat.mod_one, and_true, if_pos hadd.1, Nat.div_one, hadd.2]

theorem spanDigits_append {before cs rest : List Char} (hbefore : IsBlank before)
    (hcs : ∀ c ∈ cs, isDigit c = true) (hrest : ∀ c ∈ rest.head?, isDigit c = false ∧ isBlank c = false) :
    spanDigits (before ++ cs ++ rest) = (cs, rest) := by
  have hspan : ∀ c ∈ before ++ cs, (isDigit c || isBlank c) = true := by
    intro c hmem
    cases List.mem_append.1 hmem with
    | inl hblank => rw [hbefore c hblank, Bool.or_true]
    | inr hdigit => rw [hcs c hdigit, Bool.true_or]
  have hstop : ∀ c ∈ rest.head?, (isDigit c || isBlank c) = false := by
    intro c hmem
    rw [(hrest c hmem).1, (hrest c hmem).2, Bool.or_false]
  have hnone : before.filter isDigit = [] := by
    rw [List.filter_eq_nil_iff]
    intro c hmem hdigit
    exact Bool.eq_false_iff.1 (Text.isBlank_of_isDigit hdigit) (hbefore c hmem)
  unfold spanDigits
  rw [Text.span_append hspan hstop]
  simp only [List.filter_append, hnone, List.nil_append, List.filter_eq_self.2 hcs]

/-- A name with which a unit is written is read as the unit, and not as more of the number before it. -/
theorem read_name {u : WrittenUnit} (hu : u ∈ writtenUnits) {name : String} (hname : name ∈ [u.one, u.many]) :
    (timeUnit? name.toList).map TimeUnit.whole = some u.measure
      ∧ name.toList.all isUnitLetter = true
      ∧ name.toList.head?.any (fun c => !isDigit c && !isBlank c && c != '.') = true := by
  revert u name
  decide

section Reading

variable {p : Part} {ps : List Part} {d sum : Duration} {before rest : List Char}

/-- A part that is read back: its unit is known, and it is less than a second if it counts nanoseconds. -/
def Part.Readable (p : Part) : Prop :=
  p.unit ∈ writtenUnits ∧ (p.unit.measure.grain = .nanos → p.size < nanosPerSec)

def SpaceNext (rest : List Char) : Prop :=
  ∀ c ∈ rest.head?, c = ' '

theorem Part.name_mem (p : Part) : p.name ∈ [p.unit.one, p.unit.many] := by
  unfold Part.name
  split <;> simp

/-- The name of a unit begins with a letter, which no number goes on with. -/
theorem exists_cons_of_name (hunit : p.unit ∈ writtenUnits) :
    ∃ c cs, p.name.toList = c :: cs ∧ isDigit c = false ∧ isBlank c = false ∧ c ≠ '.' := by
  obtain ⟨-, -, hany⟩ := read_name hunit p.name_mem
  obtain ⟨c, hhead, hc⟩ := (Option.any_eq_true _ _).1 hany
  obtain ⟨cs, hcons⟩ := List.head?_eq_some_iff.1 hhead
  simp only [Bool.and_eq_true, Bool.not_eq_true', bne_iff_ne] at hc
  exact ⟨c, cs, hcons, hc.1.1, hc.1.2, hc.2⟩

theorem numeral?_spelled (hunit : p.unit ∈ writtenUnits) (hcount : p.count < UInt64.size)
    (hbefore : IsBlank before) :
    numeral? (before ++ p.spelled ++ rest) = some (⟨p.count, none⟩, p.name.toList ++ rest) := by
  obtain ⟨c, name, hname, hdigit, hblank, hpoint⟩ := exists_cons_of_name hunit
  have hspan : spanDigits (before ++ p.spelled ++ rest) = (decimal p.count, c :: (name ++ rest)) := by
    rw [Part.spelled, hname, ← List.append_assoc before, List.append_assoc]
    apply spanDigits_append hbefore (fun a => Text.isDigit_of_mem_decimal)
    intro a ha
    cases ha
    exact ⟨hdigit, hblank⟩
  have hword : word64? p.count = some p.count := if_pos hcount
  unfold numeral?
  rw [hspan, hname]
  split
  next heq => exact absurd (congrArg Prod.fst heq) (Text.decimal_ne_nil p.count)
  next heq =>
    cases heq
    exact absurd rfl hpoint
  next heq =>
    cases heq
    simp [hword]

theorem item?_spelled (hunit : p.unit ∈ writtenUnits) (hcount : p.count < UInt64.size)
    (hbefore : IsBlank before) (hrest : SpaceNext rest) :
    ∃ u, item? (before ++ p.spelled ++ rest) = some (⟨p.count, none⟩, u, rest) ∧ u.whole = p.unit.measure := by
  obtain ⟨hread, hletters, -⟩ := read_name hunit p.name_mem
  obtain ⟨u, hu, hwhole⟩ := Option.map_eq_some_iff.1 hread
  have hspan : (p.name.toList ++ rest).span isUnitLetter = (p.name.toList, rest) := by
    apply Text.span_append (List.all_eq_true.1 hletters)
    intro c hc
    rw [hrest c hc]
    rfl
  have hend : rest.head?.all (fun c => isDigit c || isBlank c) = true := by
    rw [Option.all_eq_true]
    intro c hc
    rw [hrest c hc]
    rfl
  refine ⟨u, ?_, hwhole⟩
  unfold item?
  rw [numeral?_spelled hunit hcount hbefore, Option.bind_eq_bind, Option.bind_some]
  dsimp only
  rw [hspan]
  dsimp only
  rw [hu, hend]
  rfl

theorem addItem_whole (hsum : sum.nanos = d.nanos + p.size) (hp : p.Readable) {u : TimeUnit}
    (hu : u.whole = p.unit.measure) : d.addItem ⟨p.count, none⟩ u = .ok sum := by
  have hadd : d.addFraction p.count 1 u.whole = .ok sum := by
    rw [hu]
    exact addFraction_one hsum hp.2
  unfold addItem
  simp only [hadd]
  rfl

/-- The number of a part fits 64 bits, since the part is no longer than a duration. -/
theorem Part.Readable.count_lt (hp : p.Readable) (hle : p.size ≤ d.nanos) : p.count < UInt64.size := by
  obtain ⟨hunit, hnanos⟩ := hp
  have hunits : ∀ u ∈ writtenUnits,
      0 < u.measure.size ∧ (u.measure.grain = .secs → nanosPerSec ≤ u.measure.size) := by decide
  obtain ⟨hpos, hsecs⟩ := hunits p.unit hunit
  cases hgrain : p.unit.measure.grain with
  | secs =>
    apply Nat.lt_of_mul_lt_mul_right (a := nanosPerSec)
    calc p.count * nanosPerSec
      _ ≤ p.size := Nat.mul_le_mul_left _ (hsecs hgrain)
      _ ≤ d.nanos := hle
      _ < UInt64.size * nanosPerSec := d.nanos_lt
  | nanos =>
    calc p.count
      _ ≤ p.size := Nat.le_mul_of_pos_right _ hpos
      _ < nanosPerSec := hnanos hgrain
      _ < UInt64.size := by decide

/-- The text of a part is not blank, with or without other text before and after it. -/
theorem not_blank_spelled (p : Part) (before rest : List Char) :
    ¬(before ++ p.spelled ++ rest).all isBlank = true := by
  intro hall
  obtain ⟨c, hc⟩ := List.exists_mem_of_ne_nil _ (Text.decimal_ne_nil p.count)
  have hmem : c ∈ before ++ p.spelled ++ rest := by simp [Part.spelled, hc]
  have hblank := Text.isBlank_of_isDigit (Text.isDigit_of_mem_decimal hc)
  exact Bool.eq_false_iff.1 hblank (List.all_eq_true.1 hall c hmem)

theorem go_spelled (hp : p.Readable) (hsum : sum.nanos = d.nanos + p.size) (hbefore : IsBlank before)
    (hrest : SpaceNext rest) (n : Nat) :
    ofHumanText.go (n + 1) d (before ++ p.spelled ++ rest) = ofHumanText.go n sum rest := by
  have hcount := hp.count_lt (d := sum) (hsum ▸ Nat.le_add_left _ _)
  obtain ⟨u, hitem, hu⟩ := item?_spelled hp.1 hcount hbefore hrest
  rw [ofHumanText.go, if_neg (not_blank_spelled p before rest), hitem]
  simp only [addItem_whole hsum hp hu]
  rfl

theorem spaceNext_flatMap (ps : List Part) : SpaceNext (ps.flatMap (' ' :: ·.spelled)) := by
  cases ps with
  | nil => exact fun c hc => nomatch hc
  | cons p ps => exact fun c hc => (Option.some.inj hc).symm

/--
Whatever parts are left are added up, if their sum with what was read before is a duration. No sum on the way to it
is greater, so none is refused.
-/
theorem go_flatMap (hps : ∀ p ∈ ps, p.Readable) (hsum : sum.nanos = d.nanos + Part.total ps) {n : Nat}
    (hn : ps.length ≤ n) : ofHumanText.go n d (ps.flatMap (' ' :: ·.spelled)) = .ok sum := by
  induction ps generalizing d n with
  | nil =>
    have heq : sum = d := Duration.ext hsum
    cases n <;> simp [ofHumanText.go, heq]
  | cons p ps ih =>
    obtain ⟨hp, hps⟩ := List.forall_mem_cons.1 hps
    cases n with
    | zero => cases hn
    | succ n =>
      rw [Part.total, ← Nat.add_assoc] at hsum
      let next : Duration := ⟨d.nanos + p.size, by have := sum.nanos_lt; omega⟩
      calc ofHumanText.go (n + 1) d ((p :: ps).flatMap (' ' :: ·.spelled))
        _ = ofHumanText.go n next (ps.flatMap (' ' :: ·.spelled)) :=
          go_spelled hp rfl (List.forall_mem_singleton.2 rfl : IsBlank [' ']) (spaceNext_flatMap ps) n
        _ = .ok sum := ih hps hsum (Nat.le_of_succ_le_succ hn)

theorem length_le_flatMap (ps : List Part) : ps.length ≤ (ps.flatMap (' ' :: ·.spelled)).length := by
  induction ps with
  | nil => exact Nat.le_refl 0
  | cons p ps ih =>
    simp only [List.flatMap_cons, List.length_append, List.length_cons]
    omega

/-- Parts with spaces between them are added up from nothing. -/
theorem ofHumanText_parts (hps : ∀ q ∈ p :: ps, q.Readable) (hsum : sum.nanos = Part.total (p :: ps)) :
    ofHumanText (p.spelled ++ ps.flatMap (' ' :: ·.spelled)) = .ok sum := by
  obtain ⟨hp, hps⟩ := List.forall_mem_cons.1 hps
  have hzero : p.spelled ++ ps.flatMap (' ' :: ·.spelled) ≠ ['0'] := by
    intro heq
    obtain ⟨c, cs, hname, hdigit, -⟩ := exists_cons_of_name hp.1
    have hmem : c ∈ p.spelled ++ ps.flatMap (' ' :: ·.spelled) := by simp [Part.spelled, hname]
    rw [heq, List.mem_singleton] at hmem
    rw [hmem] at hdigit
    contradiction
  have hlength : ps.length < (p.spelled ++ ps.flatMap (' ' :: ·.spelled)).length := by
    have hspelled : 0 < p.spelled.length :=
      List.length_pos_iff.2 (List.append_ne_nil_of_left_ne_nil (Text.decimal_ne_nil p.count) _)
    have hrest := length_le_flatMap ps
    rw [List.length_append]
    omega
  obtain ⟨n, hn⟩ := Nat.exists_eq_add_of_lt hlength
  have hblank : ¬(p.spelled ++ ps.flatMap (' ' :: ·.spelled)).all isBlank = true :=
    not_blank_spelled p [] _
  let first : Duration := ⟨p.size, by have := sum.nanos_lt; rw [hsum, Part.total] at this; omega⟩
  have hnext : sum.nanos = first.nanos + Part.total ps := hsum
  rw [ofHumanText, if_neg hzero, if_neg hblank, hn]
  calc ofHumanText.go (ps.length + n + 1) zero (p.spelled ++ ps.flatMap (' ' :: ·.spelled))
    _ = ofHumanText.go (ps.length + n) first (ps.flatMap (' ' :: ·.spelled)) :=
      go_spelled hp (Nat.zero_add p.size).symm (List.forall_mem_nil _ : IsBlank []) (spaceNext_flatMap ps) _
    _ = .ok sum := go_flatMap hps hnext (Nat.le_add_right _ _)

end Reading

theorem readable_of_mem_shownParts {d : Duration} {p : Part} (h : p ∈ d.shownParts) : p.Readable :=
  have hparts := (List.mem_filter.1 h).1
  ⟨unit_mem_of_mem_parts hparts, size_lt_of_mem_parts hparts⟩

/-- The text of a duration is read back as the duration. -/
theorem ofHumanText_humanText (d : Duration) : ofHumanText d.humanText = .ok d := by
  rw [humanText_eq]
  split
  next hzero =>
    have heq : d = zero := Duration.ext (of_decide_eq_true hzero)
    rw [heq]
    rfl
  next hnonzero =>
    have hsum := total_shownParts d
    have hreadable : ∀ p ∈ d.shownParts, p.Readable := fun p => readable_of_mem_shownParts
    cases hparts : d.shownParts with
    | nil => exact absurd hparts (shownParts_ne_nil hnonzero)
    | cons p ps =>
      rw [hparts] at hsum hreadable
      rw [List.map_cons, Text.intercalate_cons, List.flatMap_map]
      exact ofHumanText_parts hreadable hsum.symm

example : (ofSecs 36904032 (by decide)).humanText = "1year 2months 1day".toList := by
  decide

end ResponseCache.Duration
