import WorkloadSynth.Proofs.TimerCounts

/-!
# The format of rows

A row is accepted exactly if it has the columns of the fixed layout, its counts and its day spell
natural numbers, and its statistics are blank or spell doubles (`Accepted`); the observation then
says what the columns say (`Agrees`).  Rows are read without a look at a column that they do not have:
a reader that has no answer for such a look answers the same (`ofColumns_eq`).
-/

namespace WorkloadSynth

/-! ## §1 — counts as numbers -/

namespace Double

open Float.Model.UnpackedFloat Float.Model.Format

section Whole

variable {x : Float} {m k : Nat} {e : Int}

/-- The bits of a zero are known. -/
theorem eq_zero_of_unpack {s : Sign} (hx : x.toModel.unpack = .zero s) : x = 0.0 ∨ x = -0.0 := by
  have hnan : x.toModel.unpack.isNaN = false := by
    rw [hx]
    rfl
  rw [← Float.ofBits_toBits x, toBits_of_unpack hx hnan]
  cases s with
  | positive => exact .inl (by decide +kernel)
  | negative => exact .inr (by decide +kernel)

/-- A natural number has more bits than stand behind its point. -/
theorem neg_bits_lt_of_nat (hm : 0 < m) (h : (m : ℚ) * 2 ^ e = k) {bits : Nat}
    (hbits : m < 2 ^ bits) : -bits < e := by
  by_contra hle
  have heq := eq_mul_of_nat (by omega) h
  have hpow : 2 ^ bits ≤ 2 ^ (-e).toNat := Nat.pow_le_pow_right (by decide) (by omega)
  rcases Nat.eq_zero_or_pos k with rfl | hk
  · rw [Nat.zero_mul] at heq
    omega
  · have := Nat.le_mul_of_pos_left (2 ^ (-e).toNat) hk
    omega

/-- A word whose fraction is a multiple of a power of two is one as well. -/
theorem dvd_toNat_of_dvd_fraction {w : UInt64} {d : Nat} (hd : d ≤ 52) (h0 : 0 < wordExponent w)
    (h : 2 ^ d ∣ wordFraction w + 2 ^ 52) : 2 ^ d ∣ w.toNat := by
  have h52 : 2 ^ d ∣ 2 ^ 52 := Nat.pow_dvd_pow 2 hd
  have hfields : w.toNat = ((wordSign w).toBitVec.toNat * 2 ^ 11 + (wordExponent w - 1)) * 2 ^ 52 +
      (wordFraction w + 2 ^ 52) := by
    rw [toNat_eq_fields w]
    omega
  rw [hfields]
  exact Nat.dvd_add (Dvd.dvd.mul_left h52 _) h

/-- Bits that are cleared may have been zeros. -/
theorem cleared_of_dvd {w d : UInt64} (hd : d.toNat ≤ 52) (h : 2 ^ d.toNat ∣ w.toNat) :
    (w >>> d) <<< d = w := by
  apply UInt64.toNat.inj
  rw [toNat_cleared hd, Nat.div_mul_cancel h]

/-- **Natural numbers have no fraction.** -/
theorem truncate_of_nat {s : Sign} {hm : 0 < m} (hx : x.toModel.unpack = .finite s m e hm)
    (h : (m : ℚ) * 2 ^ e = k) : truncate x = x := by
  have henc := encodes_toBits x
  have hfraction := wordFraction_lt x.toBits
  rw [hx] at henc
  unfold truncate
  simp only [exponentField_eq]
  cases henc with
  | subnormal he hm =>
    have := neg_bits_lt_of_nat hm h hfraction
    omega
  | normal h0 he hm =>
    have hbits : wordFraction x.toBits + 2 ^ 52 < 2 ^ 53 := by omega
    have hlarge := neg_bits_lt_of_nat hm h hbits
    rw [if_neg (by omega)]
    by_cases hpoint : 1075 ≤ wordExponent x.toBits
    · rw [if_pos hpoint]
    · rw [if_neg hpoint]
      have hdrop : (UInt64.ofNat (1075 - wordExponent x.toBits)).toNat =
          1075 - wordExponent x.toBits :=
        UInt64.toNat_ofNat_of_lt' (by rw [UInt64.size]; omega)
      have heq := eq_mul_of_nat (by omega) h
      have hdvd : 2 ^ (1075 - wordExponent x.toBits) ∣ x.toBits.toNat := by
        apply dvd_toNat_of_dvd_fraction (by omega) h0
        rw [heq, show (-((wordExponent x.toBits : Int) - 1075)).toNat =
          1075 - wordExponent x.toBits by omega]
        exact Nat.dvd_mul_left _ _
      rw [cleared_of_dvd (by omega) (by rwa [hdrop]), Float.ofBits_toBits]

theorem of_isFinite (h : x.isFinite = true) :
    (∃ s, x.toModel.unpack = .zero s) ∨ ∃ s m e hm, x.toModel.unpack = .finite s m e hm := by
  have hmodel : x.toModel.unpack.isFinite = true := h
  cases hx : x.toModel.unpack with
  | notANumber => rw [hx] at hmodel; cases hmodel
  | infinity s => rw [hx] at hmodel; cases hmodel
  | zero s => exact .inl ⟨s, rfl⟩
  | finite s m e hm => exact .inr ⟨s, m, e, hm, rfl⟩

theorem value_ne_of_negative {hm : 0 < m} (hx : x.toModel.unpack = .finite .negative m e hm)
    (k : Nat) : value x ≠ k := by
  have hpos : (0 : ℚ) < m * 2 ^ e := mul_pos (Nat.cast_pos.mpr hm) (two_zpow_pos e)
  have hneg : value x < 0 := by
    unfold value
    rw [hx]
    show (((-(m : Int)) : Int) : ℚ) * 2 ^ e < 0
    rw [Int.cast_neg, Int.cast_natCast, neg_mul]
    exact neg_lt_zero.mpr hpos
  exact (hneg.trans_le (Nat.cast_nonneg k)).ne

/-- **What counts are.** Doubles without a fraction that are not negative are the natural
numbers, and `-0` is one of them. -/
theorem nonneg_and_isWhole_iff :
    (0.0 ≤ x ∧ isWhole x = true) ↔ x.isFinite = true ∧ ∃ k : Nat, value x = k := by
  by_cases hfinite : x.isFinite = true
  · rcases of_isFinite hfinite with ⟨s, hx⟩ | ⟨s, m, e, hm, hx⟩
    · refine iff_of_true ?_ ⟨hfinite, 0, (value_of_zero hx).trans Nat.cast_zero.symm⟩
      rcases eq_zero_of_unpack hx with rfl | rfl
      · decide +kernel
      · decide +kernel
    · cases s with
      | negative =>
        refine iff_of_false (fun h => ?_) ?_
        · have hle := le_iff.mp h.1
          rw [hx] at hle
          cases hle
        · rintro ⟨-, k, hk⟩
          exact value_ne_of_negative hx k hk
      | positive =>
        rw [value_of_positive hx]
        constructor
        · exact fun h => ⟨hfinite, exists_nat_of_isWhole hx h.2⟩
        · rintro ⟨-, k, hk⟩
          refine ⟨le_iff.mpr (by rw [hx]; rfl), Bool.and_eq_true_iff.mpr ⟨hfinite, ?_⟩⟩
          rw [truncate_of_nat hx hk]
          exact beq_self (isNaN_of_isFinite hfinite)
  · refine iff_of_false (fun h => ?_) (fun h => hfinite h.1)
    exact hfinite (Bool.and_eq_true_iff.mp h.2).1

/-- A natural number is cut to the largest word. -/
theorem toUInt64_of_value (hfinite : x.isFinite = true) (h : value x = k) :
    x.toUInt64 = .ofNatClamp k := by
  rw [toUInt64_eq_floor hfinite, h, Nat.floor_natCast]

theorem toNat_ofNatClamp (k : Nat) :
    (UInt64.ofNatClamp k).toNat = min k 18446744073709551615 := by
  rcases Nat.lt_or_ge k UInt64.size with hk | hk
  · rw [UInt64.toNat_ofNatClamp_of_lt hk]
    rw [UInt64.size] at hk
    omega
  · rw [UInt64.toNat_ofNatClamp_of_le hk, UInt64.size]
    rw [UInt64.size] at hk
    omega

end Whole

end Double

namespace Observation

/-! ## §2 — no look outside of the row -/

section Strict

variable (fields : Array String)

/-- The text of a column, with no answer for a column outside of the row. -/
def lookUp (column : Nat) : ExceptT FormatFault Option String :=
  ExceptT.mk (fields[column]?.map .ok)

/-- Reads a statistic without looking outside of the row. -/
def statAt (column : Nat) : ExceptT FormatFault Option Float := do
  let text := trim (← lookUp fields column).toList
  if text.isEmpty then return 0.0 / 0.0
  else
    match Literal.read text with
    | .ok l => return l.toFloat
    | .error _ => throw (.badNumber column (String.ofList text))

/-- Reads a count without looking outside of the row. -/
def countAt (column : Nat) : ExceptT FormatFault Option UInt64 := do
  let value ← statAt fields column
  if 0.0 ≤ value ∧ Double.isWhole value then return value.toUInt64
  else throw (.notACount column (← lookUp fields column))

/-- Reads the day of a row without looking outside of it. -/
def dayAt : Option Nat → ExceptT FormatFault Option Nat
  | none => return 1
  | some column => do
    let day ← countAt fields column
    if day = 0 then throw .dayZero else return day.toNat

/-- Reads the id of a row without looking outside of it. -/
def idAt (function : String) : Option Nat → ExceptT FormatFault Option String
  | none => return function
  | some column => lookUp fields column

/-- Reads a row without looking outside of it, step by step as `ofFields` does. -/
def ofColumns (trailing : TrailingColumns) : ExceptT FormatFault Option Observation := do
  if fields.size < Layout.width then throw (.tooFewColumns Layout.width fields.size)
  let stat := statAt fields
  let invocations ← (List.range minutesPerDay).mapM fun i => countAt fields (Layout.counts + i)
  let d0 ← stat (Layout.duration + 4)
  let d1 ← stat (Layout.duration + 5)
  let d25 ← stat (Layout.duration + 6)
  let d50 ← stat (Layout.duration + 7)
  let d75 ← stat (Layout.duration + 8)
  let d99 ← stat (Layout.duration + 9)
  let d100 ← stat (Layout.duration + 10)
  let m1 ← stat (Layout.memory + 2)
  let m5 ← stat (Layout.memory + 3)
  let m25 ← stat (Layout.memory + 4)
  let m50 ← stat (Layout.memory + 5)
  let m75 ← stat (Layout.memory + 6)
  let m95 ← stat (Layout.memory + 7)
  let m99 ← stat (Layout.memory + 8)
  let m100 ← stat (Layout.memory + 9)
  let day ← dayAt fields trailing.day
  let function ← lookUp fields 2
  let id ← idAt fields function trailing.id
  let owner ← lookUp fields 0
  let app ← lookUp fields 1
  let trigger ← lookUp fields 3
  let durationAverage ← stat Layout.duration
  let durationCount ← stat (Layout.duration + 1)
  let durationMinimum ← stat (Layout.duration + 2)
  let durationMaximum ← stat (Layout.duration + 3)
  let memoryCount ← stat Layout.memory
  let memoryAverage ← stat (Layout.memory + 1)
  return {
    owner
    app
    function
    trigger := .ofName trigger
    invocations
    duration :=
      ⟨durationAverage, durationCount, durationMinimum, durationMaximum,
        d0, d1, d25, d50, d75, d99, d100⟩
    memory := ⟨memoryCount, memoryAverage, m1, m5, m25, m50, m75, m95, m99, m100⟩
    day
    id }

end Strict

/-- An answer, be it a value or a fault. -/
def answer {α : Type} (x : Except FormatFault α) : ExceptT FormatFault Option α :=
  ExceptT.mk (some x)

theorem answer_bind {α β : Type} (x : Except FormatFault α) (f : α → Except FormatFault β) :
    (answer x >>= fun a => answer (f a)) = answer (x >>= f) := by
  cases x with
  | error e => rfl
  | ok a => rfl

theorem answer_pure {α : Type} (a : α) :
    (pure a : ExceptT FormatFault Option α) = answer (pure a) := rfl

theorem mapM_answer {α β : Type} {f : α → ExceptT FormatFault Option β}
    {g : α → Except FormatFault β} {xs : List α} (h : ∀ x ∈ xs, f x = answer (g x)) :
    xs.mapM f = answer (xs.mapM g) := by
  induction xs with
  | nil => rfl
  | cons x xs ih =>
    rw [List.mapM_cons, List.mapM_cons, h x List.mem_cons_self,
      ih fun y hy => h y (List.mem_cons_of_mem x hy)]
    simp only [answer_pure, answer_bind]

section InBounds

variable {fields : Array String} {column : Nat}

theorem lookUp_eq (h : column < fields.size) :
    lookUp fields column = answer (pure (field fields column)) := by
  unfold lookUp field
  rw [Array.getElem?_eq_getElem h, Array.getD_eq_getD_getElem?, Array.getElem?_eq_getElem h]
  rfl

/-- Behind the last column there is no answer. -/
example : (lookUp #["a"] 1).run = none := rfl

theorem statAt_eq (h : column < fields.size) :
    statAt fields column = answer (readStat fields column) := by
  unfold statAt readStat
  rw [lookUp_eq h]
  generalize field fields column = text
  dsimp only
  show (if (trim text.toList).isEmpty = true then _ else _) = _
  by_cases hblank : (trim text.toList).isEmpty = true
  · rw [if_pos hblank, if_pos hblank]
    rfl
  · rw [if_neg hblank, if_neg hblank]
    cases Literal.read (trim text.toList) with
    | error e => rfl
    | ok l => rfl

theorem countAt_eq (h : column < fields.size) :
    countAt fields column = answer (readCount fields column) := by
  unfold countAt readCount
  rw [statAt_eq h, lookUp_eq h, ← answer_bind]
  congr 1
  funext value
  split <;> rfl

theorem dayAt_eq {day : Option Nat} (h : ∀ column, day = some column → column < fields.size) :
    dayAt fields day = answer (readDay fields day) := by
  cases day with
  | none => rfl
  | some column =>
    rw [dayAt, readDay, countAt_eq (h column rfl), ← answer_bind]
    congr 1
    funext value
    split <;> rfl

theorem idAt_eq {function : String} {id : Option Nat}
    (h : ∀ column, id = some column → column < fields.size) :
    idAt fields function id = answer (pure ((id.map (field fields)).getD function)) := by
  cases id with
  | none => rfl
  | some column => exact lookUp_eq (h column rfl)

/-- **No look outside of the row.** -/
theorem ofColumns_eq {trailing : TrailingColumns}
    (hday : ∀ column, trailing.day = some column → column < fields.size)
    (hid : ∀ column, trailing.id = some column → column < fields.size) :
    ofColumns fields trailing = answer (ofFields trailing fields) := by
  unfold ofColumns ofFields
  by_cases hwidth : fields.size < Layout.width
  · rw [if_pos hwidth, if_pos hwidth]
    rfl
  rw [if_neg hwidth, if_neg hwidth]
  have hduration : Layout.duration = 1444 := rfl
  have hmemory : Layout.memory = 1455 := rfl
  have hall : 1465 ≤ fields.size := Nat.le_of_not_lt hwidth
  have hcounts : (List.range minutesPerDay).mapM (fun i => countAt fields (Layout.counts + i)) =
      answer ((List.range minutesPerDay).mapM fun i => readCount fields (Layout.counts + i)) := by
    apply mapM_answer
    intro i hi
    have hi' : i < 1440 := List.mem_range.mp hi
    have hcounts : Layout.counts = 4 := rfl
    exact countAt_eq (by omega)
  -- the columns of the layout are numbers below the width
  simp (disch := omega) only [hcounts, statAt_eq, lookUp_eq, dayAt_eq hday, idAt_eq hid,
    answer_pure, answer_bind]
  rfl

end InBounds

/-! ## §3 — what fields spell -/

/-- What the text of a statistic stands for: nothing if it is blank, and the number that it spells
otherwise. -/
inductive IsStat (text : String) : Float → Prop where
  | blank {x : Float} (h : trim text.toList = []) (hx : x.isNaN = true) : IsStat text x
  | number {l : Literal} (h : Literal.read (trim text.toList) = .ok l) : IsStat text l.toFloat

/-- The text of a count spells a natural number, in whatever notation. -/
def IsCount (text : String) (k : Nat) : Prop :=
  ∃ l, Literal.read (trim text.toList) = .ok l ∧ l.toFloat.isFinite = true ∧
    Double.value l.toFloat = k

section Fields

variable {fields : Array String} {column : Nat}

theorem readStat_eq_ok_iff {x : Float} :
    readStat fields column = .ok x ↔ IsStat (field fields column) x := by
  unfold readStat
  generalize field fields column = text
  dsimp only
  by_cases hblank : (trim text.toList).isEmpty = true
  · rw [if_pos hblank]
    have hnil := List.isEmpty_iff.mp hblank
    have hnan : (0.0 / 0.0 : Float).isNaN = true := by decide +kernel
    constructor
    · intro h
      rw [← Except.ok.inj h]
      exact .blank hnil hnan
    · rintro (⟨-, hx⟩ | h)
      · have hbits := (Double.toBits_of_isNaN hnan).trans (Double.toBits_of_isNaN hx).symm
        rw [Float.toBits_inj.mp hbits]
      · rw [hnil] at h
        cases h
  · rw [if_neg hblank]
    constructor
    · intro h
      cases hread : Literal.read (trim text.toList) with
      | error e =>
        rw [hread] at h
        cases h
      | ok l =>
        rw [hread] at h
        rw [← Except.ok.inj h]
        exact .number hread
    · rintro (⟨hnil, -⟩ | hread)
      · exact absurd (List.isEmpty_iff.mpr hnil) hblank
      · rw [hread]

theorem readCount_eq_ok_iff {n : UInt64} :
    readCount fields column = .ok n ↔
      ∃ k, IsCount (field fields column) k ∧ n = .ofNatClamp k := by
  constructor
  · intro h
    obtain ⟨x, hx, h⟩ := exists_of_bind_eq_ok h
    split at h
    · rename_i hcount
      obtain ⟨hfinite, k, hk⟩ := Double.nonneg_and_isWhole_iff.mp hcount
      obtain rfl := Except.ok.inj h
      refine ⟨k, ?_, Double.toUInt64_of_value hfinite hk⟩
      cases readStat_eq_ok_iff.mp hx with
      | blank _ hnan =>
        rw [Double.isNaN_of_isFinite hfinite] at hnan
        cases hnan
      | number hread => exact ⟨_, hread, hfinite, hk⟩
    · cases h
  · rintro ⟨k, ⟨l, hread, hfinite, hk⟩, rfl⟩
    have hstat : readStat fields column = .ok l.toFloat := readStat_eq_ok_iff.mpr (.number hread)
    unfold readCount
    rw [hstat]
    refine (if_pos (Double.nonneg_and_isWhole_iff.mpr ⟨hfinite, k, hk⟩)).trans ?_
    exact congrArg Except.ok (Double.toUInt64_of_value hfinite hk)

end Fields

/-! ## §4 — columns by their names -/

/-- The first column behind the fixed layout that has a name. -/
structure IsFirstColumn (header : List String) (name : String) (column : Nat) : Prop where
  behind : 1465 ≤ column
  named : header[column]? = some name
  first : ∀ c, 1465 ≤ c → c < column → header[c]? ≠ some name

theorem trailingColumn_eq_some_iff {header : List String} {name : String} {column : Nat} :
    trailingColumn header name = some column ↔ IsFirstColumn header name column := by
  have hget : ∀ j, (header.drop 1465)[j]? = header[j + 1465]? := fun j => by
    rw [List.getElem?_drop, Nat.add_comm]
  unfold trailingColumn
  rw [show Layout.width = 1465 from rfl, Option.map_eq_some_iff]
  constructor
  · rintro ⟨j, hfind, rfl⟩
    obtain ⟨hj, hname, hbefore⟩ := List.findIdx?_eq_some_iff_getElem.mp hfind
    refine ⟨Nat.le_add_left _ _, ?_, ?_⟩
    · rw [← hget, List.getElem?_eq_getElem hj, of_decide_eq_true hname]
    · intro c hc hlt hnamed
      obtain ⟨i, rfl⟩ := Nat.exists_eq_add_of_le' hc
      have hi : i < j := by omega
      rw [← hget, List.getElem?_eq_getElem (Nat.lt_trans hi hj)] at hnamed
      exact hbefore i hi (decide_eq_true (Option.some.inj hnamed))
  · rintro ⟨hbehind, hnamed, hfirst⟩
    obtain ⟨j, rfl⟩ := Nat.exists_eq_add_of_le' hbehind
    rw [← hget] at hnamed
    obtain ⟨hj, hname⟩ := List.getElem?_eq_some_iff.mp hnamed
    refine ⟨j, List.findIdx?_eq_some_iff_getElem.mpr ⟨hj, decide_eq_true hname, ?_⟩, rfl⟩
    intro i hi hnamed'
    refine hfirst (i + 1465) (Nat.le_add_left _ _) (by omega) ?_
    rw [← hget, List.getElem?_eq_getElem (Nat.lt_trans hi hj), of_decide_eq_true hnamed']

theorem trailingColumn_eq_none_iff {header : List String} {name : String} :
    trailingColumn header name = none ↔ ∀ column, ¬ IsFirstColumn header name column := by
  rw [Option.eq_none_iff_forall_ne_some]
  exact forall_congr' fun column => not_congr trailingColumn_eq_some_iff

/-! ## §5 — the format -/

/-- The rows that are observations. -/
structure Accepted (header fields : List String) : Prop where
  width : 1465 ≤ fields.length
  counts : ∀ i < 1440, ∃ text ∈ fields[4 + i]?, ∃ k, IsCount text k
  statistics : ∀ i < 21, ∃ text ∈ fields[1444 + i]?, ∃ x, IsStat text x
  day : ∀ c, IsFirstColumn header "Day" c → ∃ text ∈ fields[c]?, ∃ k, 1 ≤ k ∧ IsCount text k

/-- What an observation says about the row that it was read from. -/
structure Agrees (header fields : List String) (o : Observation) : Prop where
  owner : fields[0]? = some o.owner
  app : fields[1]? = some o.app
  function : fields[2]? = some o.function
  trigger : ∃ text ∈ fields[3]?, o.trigger = .ofName text
  minutes : o.invocations.length = 1440
  /-- Counts beyond the words are the largest word. -/
  counts : ∀ i < 1440, ∃ text ∈ fields[4 + i]?, ∃ k n, IsCount text k ∧
    o.invocations[i]? = some n ∧ n.toNat = min k 18446744073709551615
  statistics : ∀ i < 21, ∃ text ∈ fields[1444 + i]?, ∃ x, IsStat text x ∧ o.statistics[i]? = some x
  day : ∀ c, IsFirstColumn header "Day" c → ∃ text ∈ fields[c]?, ∃ k, IsCount text k ∧
    o.day = min k 18446744073709551615
  noDay : (∀ c, ¬ IsFirstColumn header "Day" c) → o.day = 1
  id : ∀ c, IsFirstColumn header "id" c → fields[c]? = some o.id
  noId : (∀ c, ¬ IsFirstColumn header "id" c) → o.id = o.function

section Format

variable {header fields : List String} {column : Nat} {o : Observation}

theorem getElem?_eq_field (h : column < fields.length) :
    fields[column]? = some (field fields.toArray column) := by
  rw [field_toArray, List.getElem?_eq_getElem h]
  rfl

/-- What is said of the text of a column is said of its field. -/
theorem exists_text_iff {P : String → Prop} (h : column < fields.length) :
    (∃ text ∈ fields[column]?, P text) ↔ P (field fields.toArray column) := by
  rw [getElem?_eq_field h]
  simp

theorem readDay_some_eq_ok_iff {fields : Array String} {d : Nat} :
    readDay fields (some column) = .ok d ↔
      ∃ k, 1 ≤ k ∧ IsCount (field fields column) k ∧ d = min k 18446744073709551615 := by
  have hzero : ∀ k, UInt64.ofNatClamp k = 0 ↔ k = 0 := by
    intro k
    rw [← UInt64.toNat_inj, Double.toNat_ofNatClamp]
    show min k 18446744073709551615 = 0 ↔ _
    omega
  constructor
  · intro h
    obtain ⟨n, hn, h⟩ := exists_of_bind_eq_ok h
    obtain ⟨k, hk, rfl⟩ := readCount_eq_ok_iff.mp hn
    split at h
    · cases h
    · rename_i hne
      obtain rfl := Except.ok.inj h
      rw [hzero] at hne
      exact ⟨k, Nat.one_le_iff_ne_zero.mpr hne, hk, Double.toNat_ofNatClamp k⟩
  · rintro ⟨k, hpos, hk, rfl⟩
    have hne : UInt64.ofNatClamp k ≠ 0 := mt (hzero k).mp (Nat.one_le_iff_ne_zero.mp hpos)
    rw [readDay, readCount_eq_ok_iff.mpr ⟨k, hk, rfl⟩]
    exact (if_neg hne).trans (congrArg Except.ok (Double.toNat_ofNatClamp k))

/-- The columns that the header announces are in the row. -/
theorem IsFirstColumn.lt_length {name : String} (h : IsFirstColumn header name column)
    (hlength : fields.length = header.length) : column < fields.length := by
  rw [hlength]
  exact (List.getElem?_eq_some_iff.mp h.named).1

theorem exists_of_forall₂_range {β : Type} {R : Nat → β → Prop} {n i : Nat} {ys : List β}
    (h : List.Forall₂ R (List.range n) ys) (hi : i < n) : ∃ y, ys[i]? = some y ∧ R i y := by
  have hlt : i < ys.length := by
    rw [← h.length_eq, List.length_range]
    exact hi
  have hget := h.get (by rwa [List.length_range]) hlt
  rw [List.get_eq_getElem, List.getElem_range] at hget
  exact ⟨ys[i], List.getElem?_eq_getElem hlt, hget⟩

/-- The day is read from the first column with its name. -/
theorem IsReadFrom.of_dayColumn (h : IsReadFrom (.ofHeader header) fields.toArray o)
    (hc : IsFirstColumn header "Day" column) :
    ∃ k, 1 ≤ k ∧ IsCount (field fields.toArray column) k ∧
      o.day = min k 18446744073709551615 := by
  have hday : readDay fields.toArray (trailingColumn header "Day") = .ok o.day := h.day
  rw [trailingColumn_eq_some_iff.mpr hc] at hday
  exact readDay_some_eq_ok_iff.mp hday

theorem IsReadFrom.agrees (h : IsReadFrom (.ofHeader header) fields.toArray o)
    (hlength : fields.length = header.length) : Agrees header fields o := by
  have hwidth : 1465 ≤ fields.length := h.width
  refine ⟨?_, ?_, ?_, ?_, ?_, ?_, ?_, ?_, ?_, ?_, ?_⟩
  · rw [h.owner]
    exact getElem?_eq_field (by omega)
  · rw [h.app]
    exact getElem?_eq_field (by omega)
  · rw [h.function]
    exact getElem?_eq_field (by omega)
  · exact (exists_text_iff (by omega)).mpr h.trigger
  · exact h.counts.length_eq.symm.trans List.length_range
  · intro i hi
    obtain ⟨n, hn, hread⟩ := exists_of_forall₂_range h.counts hi
    obtain ⟨k, hk, rfl⟩ := readCount_eq_ok_iff.mp hread
    exact (exists_text_iff (by omega)).mpr ⟨k, _, hk, hn, Double.toNat_ofNatClamp k⟩
  · intro i hi
    obtain ⟨x, hx, hread⟩ := exists_of_forall₂_range h.statistics hi
    exact (exists_text_iff (by omega)).mpr ⟨x, readStat_eq_ok_iff.mp hread, hx⟩
  · intro c hc
    obtain ⟨k, -, hk, hd⟩ := h.of_dayColumn hc
    exact (exists_text_iff (hc.lt_length hlength)).mpr ⟨k, hk, hd⟩
  · intro hnone
    have hday : readDay fields.toArray (trailingColumn header "Day") = .ok o.day := h.day
    rw [trailingColumn_eq_none_iff.mpr hnone] at hday
    exact (Except.ok.inj hday).symm
  · intro c hc
    have hid : o.id = ((trailingColumn header "id").map (field fields.toArray)).getD o.function :=
      h.id
    rw [hid, trailingColumn_eq_some_iff.mpr hc]
    exact getElem?_eq_field (hc.lt_length hlength)
  · intro hnone
    have hid : o.id = ((trailingColumn header "id").map (field fields.toArray)).getD o.function :=
      h.id
    rw [hid, trailingColumn_eq_none_iff.mpr hnone]
    rfl

theorem IsReadFrom.accepted (h : IsReadFrom (.ofHeader header) fields.toArray o)
    (hlength : fields.length = header.length) : Accepted header fields := by
  refine ⟨h.width, ?_, ?_, ?_⟩
  · intro i hi
    obtain ⟨text, htext, k, -, hk, -⟩ := (h.agrees hlength).counts i hi
    exact ⟨text, htext, k, hk⟩
  · intro i hi
    obtain ⟨text, htext, x, hx, -⟩ := (h.agrees hlength).statistics i hi
    exact ⟨text, htext, x, hx⟩
  · intro c hc
    obtain ⟨k, hpos, hk, -⟩ := h.of_dayColumn hc
    exact (exists_text_iff (hc.lt_length hlength)).mpr ⟨k, hpos, hk⟩

theorem Accepted.exists_day (h : Accepted header fields)
    (hlength : fields.length = header.length) :
    ∃ d, readDay fields.toArray (trailingColumn header "Day") = .ok d := by
  cases hcolumn : trailingColumn header "Day" with
  | none => exact ⟨1, rfl⟩
  | some c =>
    have hc := trailingColumn_eq_some_iff.mp hcolumn
    obtain ⟨k, hpos, hk⟩ := (exists_text_iff (hc.lt_length hlength)).mp (h.day c hc)
    exact ⟨_, readDay_some_eq_ok_iff.mpr ⟨k, hpos, hk, rfl⟩⟩

/-- **Accepted rows are read.** -/
theorem Accepted.exists_isReadFrom (h : Accepted header fields)
    (hlength : fields.length = header.length) :
    ∃ o, IsReadFrom (.ofHeader header) fields.toArray o := by
  have hwidth := h.width
  have hcounts : ∀ i < 1440, ∃ n, readCount fields.toArray (Layout.counts + i) = .ok n := by
    intro i hi
    obtain ⟨k, hk⟩ := (exists_text_iff (by omega)).mp (h.counts i hi)
    exact ⟨.ofNatClamp k, readCount_eq_ok_iff.mpr ⟨k, hk, rfl⟩⟩
  have hstatistics : ∀ i < 21, ∃ x, readStat fields.toArray (Layout.duration + i) = .ok x := by
    intro i hi
    obtain ⟨x, hx⟩ := (exists_text_iff (by omega)).mp (h.statistics i hi)
    exact ⟨x, readStat_eq_ok_iff.mpr hx⟩
  obtain ⟨day, hday⟩ := h.exists_day hlength
  choose! count hcount using hcounts
  choose! x hx using hstatistics
  refine ⟨{
    owner := field fields.toArray 0
    app := field fields.toArray 1
    function := field fields.toArray 2
    trigger := .ofName (field fields.toArray 3)
    invocations := (List.range minutesPerDay).map count
    duration := ⟨x 0, x 1, x 2, x 3, x 4, x 5, x 6, x 7, x 8, x 9, x 10⟩
    memory := ⟨x 11, x 12, x 13, x 14, x 15, x 16, x 17, x 18, x 19, x 20⟩
    day
    id := ((trailingColumn header "id").map (field fields.toArray)).getD (field fields.toArray 2) },
    hwidth, ?_, ?_, hday, rfl, rfl, rfl, rfl, rfl⟩
  · rw [List.forall₂_map_right_iff, List.forall₂_same]
    exact fun i hi => hcount i (List.mem_range.mp hi)
  · show List.Forall₂ _ (List.range 21) ((List.range 21).map x)
    rw [List.forall₂_map_right_iff, List.forall₂_same]
    exact fun i hi => hx i (List.mem_range.mp hi)

end Format

/-- **Rows are read by their format.** A row with a field for every name of the header is read
without a look outside of it.  It is an observation exactly if it is accepted, and then the
observation says what the row says. -/
theorem ofRow_format (line : Nat) {header fields : List String}
    (hlength : fields.length = header.length) :
    ofColumns fields.toArray (.ofHeader header) =
        answer (ofFields (.ofHeader header) fields.toArray) ∧
      ((∃ o, ofRow line (.ofHeader header) fields = .ok o) ↔ Accepted header fields) ∧
      ∀ o, ofRow line (.ofHeader header) fields = .ok o → Agrees header fields o := by
  have hinside : ∀ name column, trailingColumn header name = some column →
      column < fields.toArray.size := fun name column h =>
    (trailingColumn_eq_some_iff.mp h).lt_length hlength
  refine ⟨ofColumns_eq (hinside "Day") (hinside "id"), ?_, ?_⟩
  · constructor
    · rintro ⟨o, h⟩
      exact (ofFields_eq_ok_iff.mp (ofRow_eq_ok_iff.mp h)).accepted hlength
    · intro h
      obtain ⟨o, ho⟩ := h.exists_isReadFrom hlength
      exact ⟨o, ofRow_eq_ok_iff.mpr ho.ok⟩
  · intro o h
    exact (ofFields_eq_ok_iff.mp (ofRow_eq_ok_iff.mp h)).agrees hlength

/-- A row of the second day, with a name for its trace. -/
theorem ofRow_format_secondDay :
    let fields := plainFields "a" "f" "0" ["2", "t"]
    let header := plainNames ["Day", "id"]
    fields.length = header.length ∧ Accepted header fields ∧
      ∃ o, ofRow 2 (.ofHeader header) fields = .ok o ∧ Agrees header fields o ∧
        o.day = 2 ∧ o.id = "t" ∧
        ofColumns fields.toArray (.ofHeader header) = answer (.ok o) := by
  intro fields header
  have hlength : fields.length = header.length := by
    rw [plainFields_length, plainNames_length]
    rfl
  have htrailing : TrailingColumns.ofHeader header =
      ⟨some Layout.width, some (Layout.width + 1)⟩ := ofHeader_plainNames ["Day", "id"]
  have hday : readDay fields.toArray (some Layout.width) = .ok 2 := by
    have hfield : field fields.toArray Layout.width = "2" :=
      field_plainFields_more "a" "f" "0" ["2", "t"] 0
    have hcount : readCount fields.toArray Layout.width = .ok 2 :=
      readCount_of_text (l := .finite false ⟨2, 0⟩) hfield
        (by decide +kernel) (by decide +kernel) (by decide +kernel) (by decide +kernel)
    rw [readDay, hcount]
    rfl
  have hid : field fields.toArray (Layout.width + 1) = "t" :=
    field_plainFields_more "a" "f" "0" ["2", "t"] 1
  have hplain : ofFields ⟨some Layout.width, some (Layout.width + 1)⟩ fields.toArray =
      .ok (plainObservation "a" "f" 0 2
        (((some (Layout.width + 1)).map (field fields.toArray)).getD "f")) :=
    ofFields_plainFields "a" "f" ["2", "t"] (fun _ _ h => readCount_zero h) hday
  have hread : ofFields (.ofHeader header) fields.toArray =
      .ok (plainObservation "a" "f" 0 2 "t") := by
    rw [htrailing, hplain, Option.map_some, Option.getD_some, hid]
  obtain ⟨hstrict, haccepted, hagrees⟩ := ofRow_format 2 hlength
  have hrow : ofRow 2 (.ofHeader header) fields = .ok (plainObservation "a" "f" 0 2 "t") :=
    ofRow_eq_ok_iff.mpr hread
  exact ⟨hlength, haccepted.mp ⟨_, hrow⟩, _, hrow, hagrees _ hrow, rfl, rfl,
    hstrict.trans (congrArg answer hread)⟩

end Observation

end WorkloadSynth
