import WorkloadSynth.AppTable
import WorkloadSynth.Proofs.Decimal

/-!
# Numbers as text and back

A decimal is laid out in one of several ways, around a point or with an exponent.  Each of them is a
spelling of its value (`Spelled`), and a spelling is read as the decimal that it spells.  So a double
written to a table is read back bit for bit (`read_number`), and so is a whole number
(`readWordCell_toString`).  The cells of a table are read back for that (`Csv.CellType.read_word`,
`Csv.CellType.exists_read_number`).
-/

namespace WorkloadSynth

/-! ## §1 — runs of digits -/

/-- Nothing but decimal digits. -/
def AllDigits (cs : List Char) : Prop := ∀ c ∈ cs, isDecimalDigit c = true

section Digits

variable {as bs : List Char}

theorem isDecimalDigit_iff {c : Char} : isDecimalDigit c = true ↔ 48 ≤ c.toNat ∧ c.toNat ≤ 57 := by
  unfold isDecimalDigit
  rw [Bool.and_eq_true, decide_eq_true_iff, decide_eq_true_iff]
  exact Iff.rfl

theorem AllDigits.append (ha : AllDigits as) (hb : AllDigits bs) : AllDigits (as ++ bs) := by
  intro c hc
  rcases List.mem_append.mp hc with h | h
  · exact ha c h
  · exact hb c h

theorem allDigits_replicate (n : Nat) : AllDigits (List.replicate n '0') := by
  intro c hc
  rw [List.eq_of_mem_replicate hc]
  rfl

theorem allDigits_toDigits (n : Nat) : AllDigits (Nat.toDigits 10 n) := by
  intro c hc
  exact isDecimalDigit_iff.mpr (Char.isDigit_iff_toNat.mp
    (Nat.isDigit_of_mem_toDigits (by decide) (le_refl _) hc))

/-- Digits are read onto what stands before them. -/
theorem foldl_digits (v : Nat) (ds : List Char) :
    ds.foldl (fun value c => value * 10 + (c.toNat - '0'.toNat)) v =
      v * 10 ^ ds.length + digitsValue ds := by
  unfold digitsValue
  induction ds generalizing v with
  | nil => rw [List.foldl_nil, List.foldl_nil, List.length_nil, pow_zero, mul_one, add_zero]
  | cons c ds ih =>
    rw [List.foldl_cons, List.foldl_cons, ih, ih (0 * 10 + _), List.length_cons, pow_succ]
    ring

theorem digitsValue_append (as bs : List Char) :
    digitsValue (as ++ bs) = digitsValue as * 10 ^ bs.length + digitsValue bs := by
  rw [← foldl_digits]
  unfold digitsValue
  exact List.foldl_append

theorem digitsValue_replicate (n : Nat) : digitsValue (List.replicate n '0') = 0 := by
  induction n with
  | zero => rfl
  | succ n ih =>
    rw [List.replicate_succ', digitsValue_append, ih]
    rfl

theorem digitsValue_toDigits (n : Nat) : digitsValue (Nat.toDigits 10 n) = n := by
  refine Eq.trans ?_ (Nat.ofDigitChars_toDigits (b := 10) (n := n) (by decide) (le_refl _))
  unfold digitsValue Nat.ofDigitChars
  congr 1
  funext value c
  rw [mul_comm]

variable {rest : List Char} (hrest : ∀ c ∈ rest.head?, isDecimalDigit c = false)

include hrest

/-- A run of digits ends where something else begins. -/
theorem takeWhile_digits (ha : AllDigits as) : (as ++ rest).takeWhile isDecimalDigit = as := by
  rw [List.takeWhile_append_of_pos ha]
  cases rest with
  | nil => rw [List.takeWhile_nil, List.append_nil]
  | cons c rest =>
    rw [List.takeWhile_cons_of_neg (by simp [hrest c rfl]), List.append_nil]

theorem dropWhile_digits (ha : AllDigits as) : (as ++ rest).dropWhile isDecimalDigit = rest := by
  rw [List.dropWhile_append_of_pos ha]
  cases rest with
  | nil => rfl
  | cons c rest => exact List.dropWhile_cons_of_neg (by simp [hrest c rfl])

end Digits

/-! ## §2 — spellings -/

/-- What stands behind the digits: nothing, or an exponent. -/
inductive Tail : List Char → Int → Prop where
  | none : Tail [] 0
  | exponent (e : Int) : Tail ('e' :: (toString e).toList) e

/-- A text is a spelling of a decimal: digits, with a point between them or none. -/
inductive Spelled : List Char → Decimal → Prop where
  | whole {whole rest : List Char} {e : Int} (hdigits : AllDigits whole) (hne : whole ≠ [])
      (htail : Tail rest e) : Spelled (whole ++ rest) ⟨digitsValue whole, e⟩
  | point {whole fraction rest : List Char} {e : Int} (hdigits : AllDigits whole)
      (hne : whole ≠ []) (hfraction : AllDigits fraction) (htail : Tail rest e) :
      Spelled (whole ++ '.' :: (fraction ++ rest))
        ⟨digitsValue (whole ++ fraction), e - fraction.length⟩

section Spellings

variable {cs rest : List Char} {e : Int} {d : Decimal}

theorem Tail.head (h : Tail rest e) : ∀ c ∈ rest.head?, isDecimalDigit c = false := by
  cases h with
  | none => exact fun c hc => by cases hc
  | exponent e =>
    intro c hc
    obtain rfl := Option.some.inj hc
    rfl

/-- A digit is no sign. -/
theorem ne_sign_of_isDecimalDigit {c : Char} (h : isDecimalDigit c = true) : c ≠ '-' ∧ c ≠ '+' := by
  constructor
  · rintro rfl
    cases h
  · rintro rfl
    cases h

theorem readExponent_digits {ds : List Char} (hall : AllDigits ds) (hne : ds ≠ []) :
    Literal.readExponent ('e' :: ds) = some (digitsValue ds : Int) := by
  obtain ⟨c, more, rfl⟩ := List.exists_cons_of_ne_nil hne
  obtain ⟨hminus, hplus⟩ := ne_sign_of_isDecimalDigit (hall c List.mem_cons_self)
  have hall' : (c :: more).all isDecimalDigit = true := List.all_eq_true.mpr hall
  simp [Literal.readExponent, hminus, hplus, hall']

theorem readExponent_minus {ds : List Char} (hall : AllDigits ds) (hne : ds ≠ []) :
    Literal.readExponent ('e' :: '-' :: ds) = some (-(digitsValue ds : Int)) := by
  have hall' : ds.all isDecimalDigit = true := List.all_eq_true.mpr hall
  simp [Literal.readExponent, hne, hall']

/-- An exponent is read back. -/
theorem Tail.readExponent (h : Tail rest e) : Literal.readExponent rest = some e := by
  cases h with
  | none => rfl
  | exponent e =>
    cases e with
    | ofNat n =>
      rw [show (toString (Int.ofNat n)).toList = Nat.toDigits 10 n from Nat.toList_repr,
        readExponent_digits (allDigits_toDigits n) Nat.toDigits_ne_nil, digitsValue_toDigits]
      rfl
    | negSucc n =>
      have htext : (toString (Int.negSucc n)).toList = '-' :: Nat.toDigits 10 (n + 1) := by
        show ("-" ++ Nat.repr (n + 1)).toList = _
        rw [String.toList_append, Nat.toList_repr]
        rfl
      rw [htext, readExponent_minus (allDigits_toDigits (n + 1)) Nat.toDigits_ne_nil,
        digitsValue_toDigits]
      rfl

/-- **A spelling is read as what it spells.** -/
theorem Spelled.readMagnitude (h : Spelled cs d) : Literal.readMagnitude cs = some d := by
  cases h with
  | @whole whole rest e hdigits hne htail =>
    have hread := htail.readExponent
    unfold Literal.readMagnitude
    rw [takeWhile_digits htail.head hdigits, dropWhile_digits htail.head hdigits]
    -- no point follows, whether there is an exponent or not
    cases htail with
    | none => simp [hne, hread]
    | exponent e =>
      generalize (toString e).toList = text at hread ⊢
      simp [hne, hread]
  | @point whole fraction rest e hdigits hne hfraction htail =>
    have hread := htail.readExponent
    have hhead := htail.head
    have hpoint : ∀ c ∈ ('.' :: (fraction ++ rest)).head?, isDecimalDigit c = false := by
      intro c hc
      obtain rfl := Option.some.inj hc
      rfl
    simp [Literal.readMagnitude, takeWhile_digits hpoint hdigits,
      dropWhile_digits hpoint hdigits, takeWhile_digits hhead hfraction,
      dropWhile_digits hhead hfraction, hne, hread]

/-- A spelling begins with a digit. -/
theorem Spelled.exists_cons (h : Spelled cs d) :
    ∃ c rest, cs = c :: rest ∧ isDecimalDigit c = true := by
  cases h with
  | @whole whole rest e hdigits hne htail =>
    obtain ⟨c, more, rfl⟩ := List.exists_cons_of_ne_nil hne
    exact ⟨c, more ++ rest, rfl, hdigits c List.mem_cons_self⟩
  | @point whole fraction rest e hdigits hne hfraction htail =>
    obtain ⟨c, more, rfl⟩ := List.exists_cons_of_ne_nil hne
    exact ⟨c, more ++ '.' :: (fraction ++ rest), rfl, hdigits c List.mem_cons_self⟩

theorem toLower_of_isDecimalDigit {c : Char} (h : isDecimalDigit c = true) : c.toLower = c := by
  have hc := (isDecimalDigit_iff.mp h).2
  unfold Char.toLower
  rw [dif_neg]
  rintro ⟨hle, -⟩
  have hle' : 65 ≤ c.toNat := hle
  omega

/-- A spelling is no name of a special value. -/
theorem Spelled.readUnsigned (h : Spelled cs d) (negative : Bool) :
    Literal.readUnsigned negative cs = some (.finite negative d) := by
  have hread := h.readMagnitude
  obtain ⟨c, rest, rfl, hc⟩ := h.exists_cons
  have hname : ∀ name : Char, ∀ more : List Char, isDecimalDigit name = false →
      (c :: rest).map Char.toLower ≠ name :: more := by
    intro name more hn heq
    rw [List.map_cons, toLower_of_isDecimalDigit hc] at heq
    rw [(List.cons.inj heq).1] at hc
    rw [hc] at hn
    cases hn
  unfold Literal.readUnsigned
  dsimp only
  rw [if_neg (not_or.mpr ⟨hname 'i' _ rfl, hname 'i' _ rfl⟩), if_neg (hname 'n' _ rfl), hread]
  rfl

theorem Spelled.read (h : Spelled cs d) : Literal.read cs = .ok (.finite false d) := by
  have hread := h.readUnsigned false
  obtain ⟨c, rest, rfl, hc⟩ := h.exists_cons
  obtain ⟨hminus, hplus⟩ := ne_sign_of_isDecimalDigit hc
  simp [Literal.read, hminus, hplus, hread]

theorem Spelled.read_minus (h : Spelled cs d) :
    Literal.read ('-' :: cs) = .ok (.finite true d) := by
  simp [Literal.read, h.readUnsigned true]

end Spellings

/-! ## §3 — layouts -/

namespace Decimal

/-- Zeros at the end and the exponent make up for each other. -/
theorem value_mul_pow (n k : Nat) (e : Int) : value ⟨n * 10 ^ k, e⟩ = value ⟨n, e + k⟩ := by
  unfold value
  dsimp only
  rw [zpow_add₀ (by norm_num), zpow_natCast]
  push_cast
  ring

theorem toList_zeros (n : Nat) : (zeros n).toList = List.replicate n '0' := String.toList_ofList

/-- Digits around a point are a spelling. -/
theorem spelled_point {whole fraction : List Char} (hwhole : AllDigits whole) (hne : whole ≠ [])
    (hfraction : AllDigits fraction) {d : Decimal}
    (hvalue : value ⟨digitsValue (whole ++ fraction), -(fraction.length : Int)⟩ = d.value) :
    ∃ d', Spelled (whole ++ '.' :: fraction) d' ∧ d'.value = d.value := by
  have hspelled := Spelled.point hwhole hne hfraction .none
  rw [List.append_nil] at hspelled
  refine ⟨_, hspelled, ?_⟩
  rw [zero_sub]
  exact hvalue

/-- Zeros in front of digits. -/
theorem digitsValue_zeros_append (k : Nat) (ds : List Char) :
    digitsValue (List.replicate k '0' ++ ds) = digitsValue ds := by
  rw [digitsValue_append, digitsValue_replicate, zero_mul, zero_add]

theorem digitsValue_append_zeros (ds : List Char) (k : Nat) :
    digitsValue (ds ++ List.replicate k '0') = digitsValue ds * 10 ^ k := by
  rw [digitsValue_append, digitsValue_replicate, List.length_replicate, add_zero]

/-- The layout around a point is a spelling. -/
theorem spelled_layPositional {ds : List Char} (hall : AllDigits ds) (hne : ds ≠ []) (e : Int)
    (wholePoint : Bool) :
    ∃ d', Spelled (layPositional ds (e + ds.length) wholePoint).toList d' ∧
      d'.value = value ⟨digitsValue ds, e⟩ := by
  have hzero : AllDigits ['0'] := allDigits_replicate 1
  have hpoint : "0.".toList = ['0', '.'] := rfl
  generalize htop : e + ds.length = top
  unfold layPositional
  split
  -- the digits begin behind the point, after zeros
  · next k =>
    rw [String.toList_append, String.toList_append, toList_zeros, hpoint, String.toList_ofList,
      List.append_assoc]
    apply spelled_point hzero (List.cons_ne_nil _ _) ((allDigits_replicate _).append hall)
    rw [← List.append_assoc, show ['0'] ++ List.replicate (k + 1) '0' = List.replicate (k + 2) '0'
      from rfl, digitsValue_zeros_append, List.length_append, List.length_replicate]
    congr 2
    omega
  -- they begin right behind the point
  · have htop' : e + ds.length = 0 := htop
    rw [String.toList_append, hpoint, String.toList_ofList]
    apply spelled_point hzero (List.cons_ne_nil _ _) hall
    rw [show ['0'] = List.replicate 1 '0' from rfl, digitsValue_zeros_append]
    congr 2
    omega
  · next k hk =>
    have htop' : e + ds.length = (k : Int) := htop
    by_cases hlen : ds.length ≤ k
    -- they end before the point, and zeros follow
    · rw [if_pos hlen, String.toList_append, String.toList_append, toList_zeros,
        String.toList_ofList]
      have hwhole := hall.append (allDigits_replicate (k - ds.length))
      have hne' := List.append_ne_nil_of_left_ne_nil hne (List.replicate (k - ds.length) '0')
      cases wholePoint with
      | true =>
        apply spelled_point hwhole hne' hzero
        rw [show ['0'] = List.replicate 1 '0' from rfl, digitsValue_append_zeros,
          digitsValue_append_zeros, value_mul_pow, value_mul_pow, List.length_replicate]
        congr 2
        omega
      | false =>
        refine ⟨_, .whole hwhole hne' .none, ?_⟩
        rw [digitsValue_append_zeros, value_mul_pow]
        congr 2
        omega
    -- the point stands between them
    · have hpos : 0 < k := Nat.pos_of_ne_zero hk
      rw [if_neg hlen, String.toList_append, String.toList_append, String.toList_ofList,
        show ".".toList = ['.'] from rfl, String.toList_ofList, List.append_assoc,
        List.singleton_append]
      apply spelled_point
      · exact fun c hc => hall c (List.mem_of_mem_take hc)
      · exact List.length_pos_iff.mp (by rw [List.length_take]; omega)
      · exact fun c hc => hall c (List.mem_of_mem_drop hc)
      · rw [List.take_append_drop, List.length_drop]
        congr 2
        omega

/-- The layout with an exponent is a spelling. -/
theorem spelled_layScientific {ds : List Char} (hall : AllDigits ds) (hne : ds ≠ []) (e : Int) :
    ∃ d', Spelled (layScientific ds (e + ds.length)).toList d' ∧
      d'.value = value ⟨digitsValue ds, e⟩ := by
  cases ds with
  | nil => exact absurd rfl hne
  | cons c ds =>
    have hlast : ∀ k : Int, ("e" ++ toString k).toList = 'e' :: (toString k).toList := by
      intro k
      rw [String.toList_append]
      rfl
    have hfirst : AllDigits [c] := by
      intro a ha
      rw [List.mem_singleton.mp ha]
      exact hall c List.mem_cons_self
    have hrest : AllDigits ds := fun a ha => hall a (List.mem_cons_of_mem c ha)
    cases ds with
    | nil =>
      show ∃ d', Spelled (String.singleton c ++ "e" ++ toString (e + 1 - 1)).toList d' ∧ _
      rw [String.append_assoc, String.toList_append, hlast, String.toList_singleton]
      refine ⟨_, .whole hfirst (List.cons_ne_nil _ _) (.exponent _), ?_⟩
      rw [Int.add_sub_cancel]
    | cons c' ds =>
      show ∃ d', Spelled (String.singleton c ++ "." ++ String.ofList (c' :: ds) ++ "e" ++
        toString (e + (c :: c' :: ds).length - 1)).toList d' ∧ _
      rw [String.append_assoc, String.toList_append, hlast, String.toList_append,
        String.toList_append, String.toList_singleton, show ".".toList = ['.'] from rfl,
        String.toList_ofList, List.append_assoc, List.append_assoc]
      show ∃ d', Spelled ([c] ++ '.' :: (c' :: ds ++ 'e' :: (toString _).toList)) d' ∧ _
      refine ⟨_, .point hfirst (List.cons_ne_nil _ _) hrest (.exponent _), ?_⟩
      congr 2
      rw [List.length_cons, List.length_cons]
      omega

/-- **Every layout is a spelling of the value.** -/
theorem spelled_write (style : Style) (d : Decimal) :
    ∃ d', Spelled (d.write style).toList d' ∧ d'.value = d.value := by
  have hall := allDigits_toDigits d.digits
  have hne : Nat.toDigits 10 d.digits ≠ [] := Nat.toDigits_ne_nil
  have hvalue := digitsValue_toDigits d.digits
  unfold write top digitCount
  dsimp only
  split
  · obtain ⟨d', hspelled, hd'⟩ := spelled_layPositional hall hne d.exponent style.wholePoint
    rw [hvalue] at hd'
    exact ⟨d', hspelled, hd'⟩
  · obtain ⟨d', hspelled, hd'⟩ := spelled_layScientific hall hne d.exponent
    rw [hvalue] at hd'
    exact ⟨d', hspelled, hd'⟩

end Decimal

/-! ## §4 — doubles -/

/-- **A double in a table is read back bit for bit.** -/
theorem read_number (x : Float) :
    ∃ l, Literal.read (Csv.number x).toList = .ok l ∧ l.toBits = x.toBits := by
  unfold Csv.number Double.write Double.spell
  by_cases hnan : x.isNaN = true
  · rw [if_pos hnan, Double.toBits_of_isNaN hnan]
    exact ⟨.nan false, rfl, rfl⟩
  rw [if_neg hnan]
  have hnumber := Bool.eq_false_of_not_eq_true hnan
  dsimp only
  by_cases hfin : x.isFinite = true
  · rw [if_pos hfin]
    obtain ⟨d, hspelled, hvalue⟩ := Decimal.spelled_write Csv.numberStyle
      (Double.shortestDigits Csv.numberStyle.tie x)
    have hfloat := (Decimal.toFloat_congr hvalue).trans (Decimal.toFloat_shortestDigits _ hfin)
    have hsigned := Double.signed_abs hnumber
    refine ⟨.finite (Double.isNegative x) d, ?_, ?_⟩
    · cases Double.isNegative x with
      | true =>
        rw [if_pos rfl, String.toList_append]
        exact hspelled.read_minus
      | false =>
        rw [if_neg Bool.false_ne_true, String.toList_append]
        exact hspelled.read
    · show (if Double.isNegative x = true then -d.toFloat else d.toFloat).toBits = x.toBits
      rw [hfloat, hsigned]
  · rw [if_neg hfin, Double.toBits_of_infinite hnumber (Bool.eq_false_of_not_eq_true hfin)]
    cases Double.isNegative x with
    | true => exact ⟨.infinity true, rfl, rfl⟩
    | false => exact ⟨.infinity false, rfl, rfl⟩

/-! ## §5 — whole numbers -/

section Words

variable {ds : List Char}

theorem digitValue?_of_isDecimalDigit {c : Char} (h : isDecimalDigit c = true) :
    digitValue? 10 c = some (c.toNat - 48) := by
  obtain ⟨hlow, hhigh⟩ := isDecimalDigit_iff.mp h
  unfold digitValue?
  rw [if_pos ⟨hlow, hhigh⟩]
  exact Option.filter_some_pos (by simp; omega)

/-- Digits that stay within 64 bits are read to the end. -/
theorem readDigits_of_allDigits (hall : AllDigits ds) (v : Nat)
    (h : v * 10 ^ ds.length + digitsValue ds < UInt64.size) :
    readDigits 10 ds v = .ok (v * 10 ^ ds.length + digitsValue ds) := by
  induction ds generalizing v with
  | nil => exact congrArg Except.ok (by simp [digitsValue])
  | cons c ds ih =>
    have hstep : v * 10 ^ (c :: ds).length + digitsValue (c :: ds) =
        (v * 10 + (c.toNat - 48)) * 10 ^ ds.length + digitsValue ds := by
      rw [← foldl_digits, ← foldl_digits]
      rfl
    rw [hstep] at h ⊢
    -- what has been read never exceeds the whole number
    have hpow : 0 < 10 ^ ds.length := by positivity
    have hle : v * 10 + (c.toNat - 48) < UInt64.size :=
      lt_of_le_of_lt (le_trans (Nat.le_mul_of_pos_right _ hpow) (Nat.le_add_right _ _)) h
    unfold readDigits
    rw [digitValue?_of_isDecimalDigit (hall c List.mem_cons_self)]
    dsimp only
    rw [if_pos hle]
    exact ih (fun a ha => hall a (List.mem_cons_of_mem _ ha)) _ h

/-- **A whole number in a table is read back.** -/
theorem readWordCell_toString (n : UInt64) :
    Csv.readWordCell (toString n.toNat).toList = .ok n := by
  have hall := allDigits_toDigits n.toNat
  have hvalue := digitsValue_toDigits n.toNat
  have hread : readDigits 10 (Nat.toDigits 10 n.toNat) 0 = .ok n.toNat := by
    have h := readDigits_of_allDigits hall 0
    rw [hvalue, zero_mul, zero_add] at h
    exact h n.toNat_lt
  rw [show (toString n.toNat).toList = Nat.toDigits 10 n.toNat from Nat.toList_repr]
  have hne : Nat.toDigits 10 n.toNat ≠ [] := Nat.toDigits_ne_nil
  generalize Nat.toDigits 10 n.toNat = ds at hall hread hne
  obtain ⟨c, ds, rfl⟩ := List.exists_cons_of_ne_nil hne
  obtain ⟨-, hplus⟩ := ne_sign_of_isDecimalDigit (hall c List.mem_cons_self)
  have hx : ∀ more, ds ≠ 'x' :: more := by
    rintro more rfl
    have := hall 'x' (by simp)
    cases this
  have hword : readWord 10 (c :: ds) = .ok n := by
    simp [readWord, hplus, hread, Except.map]
  simp [Csv.readWordCell, hx, hword]

end Words

/-! ## §6 — cells -/

/-- The pattern that a literal denotes is one of its double. -/
theorem Literal.ofBits_toBits (l : Literal) : Float.ofBits l.toBits = l.toFloat := by
  cases l with
  | nan negative => cases negative <;> decide
  | infinity negative => exact Float.ofBits_toBits _
  | finite negative magnitude => exact Float.ofBits_toBits _

namespace Csv.CellType

theorem read_text (s : String) : CellType.text.read s = .ok (.text s) := rfl

theorem read_word (n : UInt64) : CellType.word.read (toString n.toNat) = .ok (.word n) := by
  rw [CellType.read, readWordCell_toString]
  rfl

theorem exists_read_number (x : Float) :
    ∃ l, CellType.number.read (Csv.number x) = .ok (.number l) ∧ l.toBits = x.toBits := by
  obtain ⟨l, hread, hbits⟩ := read_number x
  refine ⟨l, ?_, hbits⟩
  rw [CellType.read, hread]
  rfl

end Csv.CellType

end WorkloadSynth
