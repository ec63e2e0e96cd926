import Mathlib.Data.List.Basic
import Mathlib.Data.List.GetD
import Mathlib.Data.List.TakeWhile
import Mathlib.Tactic.IntervalCases

/-!
# C strings and the text functions of the C library

A C string is the list of its characters before the NUL, and a pointer into it is the
suffix it points to. The character classes are those of the C locale.
-/

namespace CText

def NUL : Char := '\x00'

/-! ## Comparisons -/

def strncmpEq (s t : List Char) (n : Nat) : Bool := s.take n == t.take n

def strncasecmpEq (s t : List Char) (n : Nat) : Bool :=
  (s.take n).map Char.toLower == (t.take n).map Char.toLower

/-! ## Numbers -/

def isspace (c : Char) : Bool := c.toNat == 32 || (9 ≤ c.toNat && c.toNat ≤ 13)

def digitVal (base : Nat) (c : Char) : Option Nat :=
  let v := if c.isDigit then c.toNat - 48
    else if c.isLower then c.toNat - 87
    else if c.isUpper then c.toNat - 55
    else base
  if v < base then some v else none

/-- Reads digits on top of `acc`, and stops in front of the first other character. -/
def scanDigits (base : Nat) : Nat → List Char → Nat × List Char
  | acc, [] => (acc, [])
  | acc, c :: cs =>
    match digitVal base c with
    | some d => scanDigits base (base * acc + d) cs
    | none => (acc, c :: cs)

def ULONG_MAX : Nat := 18446744073709551615

def scanSign : List Char → Bool × List Char
  | '-' :: s => (true, s)
  | '+' :: s => (false, s)
  | s => (false, s)

/-- The base that base 0 stands for, and the digits. -/
def scanBase : List Char → Nat × List Char
  | '0' :: x :: d :: s =>
    if (x == 'x' || x == 'X') && (digitVal 16 d).isSome then (16, d :: s) else (8, '0' :: x :: d :: s)
  | '0' :: s => (8, '0' :: s)
  | s => (10, s)

/-- `strtoul(nptr, &endptr, 0)`: the value, and `endptr`. -/
def strtoul (nptr : List Char) : Nat × List Char :=
  let (neg, s) := scanSign (nptr.dropWhile isspace)
  let (base, s) := scanBase s
  if (s.head?.bind (digitVal base)).isSome then
    let (v, endptr) := scanDigits base 0 s
    (if v > ULONG_MAX then ULONG_MAX else if neg then (ULONG_MAX + 1 - v) % (ULONG_MAX + 1) else v,
      endptr)
  else (0, nptr)

/-! ## Writing into a buffer -/

/-- `snprintf(buf + ofs, n, ..)` of the text that the format expands to. -/
def snprintf (buf : Nat → Char) (ofs n : Nat) (text : List Char) : Nat × (Nat → Char) :=
  (text.length, fun i =>
    if n = 0 ∨ i < ofs then buf i
    else if i < ofs + min text.length (n - 1) then text.getD (i - ofs) NUL
    else if i = ofs + min text.length (n - 1) then NUL
    else buf i)

def Holds (buf : Nat → Char) (text : List Char) : Prop := ∀ i, i < text.length → buf i = text.getD i NUL

def HoldsString (buf : Nat → Char) (text : List Char) : Prop :=
  Holds buf text ∧ buf text.length = NUL

/-- `text` is the C string in the buffer: all characters up to the first NUL. -/
def IsString (buf : Nat → Char) (text : List Char) : Prop := HoldsString buf text ∧ NUL ∉ text

theorem Holds.getElem {buf : Nat → Char} {text : List Char} (h : Holds buf text) (i : Nat)
    (hi : i < text.length) : buf i = text[i] := by
  rw [h i hi, List.getD_eq_getElem _ _ hi]

theorem isString_length_le (buf : Nat → Char) (s t : List Char) (hs : IsString buf s)
    (ht : IsString buf t) : s.length ≤ t.length := by
  by_contra hlt
  have hi : t.length < s.length := by omega
  have hc : s[t.length] = NUL := by rw [← hs.1.1.getElem _ hi, ht.1.2]
  exact hs.2 (hc ▸ List.getElem_mem hi)

theorem isString_unique (buf : Nat → Char) (s t : List Char) (hs : IsString buf s)
    (ht : IsString buf t) : s = t := by
  have hlen := Nat.le_antisymm (isString_length_le buf s t hs ht) (isString_length_le buf t s ht hs)
  refine List.ext_getElem hlen fun i hi hi' => ?_
  rw [← hs.1.1.getElem i hi, ht.1.1.getElem i hi']

theorem holds_nil (buf : Nat → Char) : Holds buf [] := fun i hi => absurd hi (by simp)

theorem snprintf_frame (buf : Nat → Char) (ofs n : Nat) (text : List Char) (i : Nat)
    (h : ofs + n ≤ i) : (snprintf buf ofs n text).2 i = buf i := by
  simp only [snprintf]
  split_ifs <;> first | rfl | omega

theorem snprintf_fits (buf : Nat → Char) (done text : List Char) (n : Nat) (hdone : Holds buf done)
    (hn : text.length < n) :
    HoldsString (snprintf buf done.length n text).2 (done ++ text) := by
  have hmin : min text.length (n - 1) = text.length := by omega
  simp only [snprintf, hmin]
  constructor
  · intro i hi
    rw [List.length_append] at hi
    by_cases hlt : i < done.length
    · beta_reduce
      rw [if_pos (Or.inr hlt), hdone i hlt, List.getD_append _ _ _ _ hlt]
    · beta_reduce
      rw [if_neg (by omega), if_pos (by omega), List.getD_append_right _ _ _ _ (by omega)]
  · beta_reduce
    rw [List.length_append, if_neg (by omega), if_neg (by omega), if_pos rfl]

/-! ## Decimal text -/

/-- The text of `%u`. -/
def decimal (n : Nat) : List Char := Nat.toDigits 10 n

def NoDigit (s : List Char) : Prop := ∀ c ∈ s.head?, c.isDigit = false

def NoAlnum (s : List Char) : Prop := ∀ c ∈ s.head?, c.isAlphanum = false

theorem isUpper_iff (c : Char) : c.isUpper = true ↔ 65 ≤ c.toNat ∧ c.toNat ≤ 90 := decide_eq_true_iff

theorem isLower_iff (c : Char) : c.isLower = true ↔ 97 ≤ c.toNat ∧ c.toNat ≤ 122 := by
  have hrange : c.isLower = (decide ('a'.val ≤ c.val) && decide (c.val ≤ 'z'.val)) := rfl
  rw [hrange, Bool.and_eq_true, decide_eq_true_eq, decide_eq_true_eq]
  rfl

theorem isAlpha_iff (c : Char) :
    c.isAlpha = true ↔ (65 ≤ c.toNat ∧ c.toNat ≤ 90) ∨ (97 ≤ c.toNat ∧ c.toNat ≤ 122) := by
  have hcases : c.isAlpha = (c.isUpper || c.isLower) := rfl
  rw [hcases, Bool.or_eq_true, isUpper_iff, isLower_iff]

theorem not_isDigit_of_isAlpha (c : Char) (h : c.isAlpha) : c.isDigit = false := by
  rw [Bool.eq_false_iff]
  intro hdigit
  have hrange : 48 ≤ c.toNat ∧ c.toNat ≤ 57 := Char.isDigit_iff_toNat.mp hdigit
  rw [isAlpha_iff] at h
  omega

theorem digitVal_digit (c : Char) (h : c.isDigit) : digitVal 10 c = some (c.toNat - 48) := by
  have hc := Char.isDigit_iff_toNat.mp h
  simp at hc
  simp [digitVal, h]
  omega

theorem digitVal_not_digit (base : Nat) (c : Char) (hbase : base ≤ 10) (h : c.isDigit = false) :
    digitVal base c = none := by
  simp only [digitVal, h, Bool.false_eq_true, if_false]
  split_ifs with hlower hlt hupper hlt hlt
  · have := ((isLower_iff c).mp hlower).1
    omega
  · rfl
  · have := ((isUpper_iff c).mp hupper).1
    omega
  · rfl
  · omega
  · rfl

theorem scanDigits_stop (base acc : Nat) (s : List Char) (hbase : base ≤ 10) (h : NoDigit s) :
    scanDigits base acc s = (acc, s) := by
  cases s with
  | nil => rfl
  | cons c s => simp [scanDigits, digitVal_not_digit base c hbase (h c rfl)]

theorem scanDigits_append (acc : Nat) (ds rest : List Char) (hds : ∀ c ∈ ds, c.isDigit)
    (hrest : NoDigit rest) :
    scanDigits 10 acc (ds ++ rest) = (Nat.ofDigitChars 10 ds acc, rest) := by
  induction ds generalizing acc with
  | nil => simpa using scanDigits_stop 10 acc rest (Nat.le_refl _) hrest
  | cons c ds ih =>
    have hc := digitVal_digit c (hds c List.mem_cons_self)
    rw [List.cons_append, scanDigits, hc]
    simp only
    rw [ih _ fun d hd => hds d (List.mem_cons_of_mem _ hd)]
    rfl

theorem decimal_isDigit (n : Nat) : ∀ c ∈ decimal n, c.isDigit := fun _ hc =>
  Nat.isDigit_of_mem_toDigits (by omega) (by omega) hc

theorem decimal_ne_nil (n : Nat) : decimal n ≠ [] := Nat.toDigits_ne_nil

theorem scanDigits_decimal (n : Nat) (rest : List Char) (h : NoDigit rest) :
    scanDigits 10 0 (decimal n ++ rest) = (n, rest) := by
  rw [scanDigits_append 0 _ _ (decimal_isDigit n) h]
  simp [decimal]

theorem NoAlnum.noDigit {s : List Char} (h : NoAlnum s) : NoDigit s := by
  intro c hc
  have := h c hc
  simp only [Char.isAlphanum, Bool.or_eq_false_iff] at this
  exact this.2

theorem not_isspace_of_isDigit (c : Char) (h : c.isDigit) : isspace c = false := by
  have hc := Char.isDigit_iff_toNat.mp h
  simp at hc
  simp [isspace]
  omega

theorem scanSign_of_ne (c : Char) (s : List Char) (hminus : c ≠ '-') (hplus : c ≠ '+') :
    scanSign (c :: s) = (false, c :: s) := by
  unfold scanSign
  split
  · rename_i heq
    exact absurd (List.cons.inj heq).1 hminus
  · rename_i heq
    exact absurd (List.cons.inj heq).1 hplus
  · rfl

theorem scanSign_of_isDigit (c : Char) (s : List Char) (h : c.isDigit) : scanSign (c :: s) = (false, c :: s) :=
  scanSign_of_ne c s (by rintro rfl; exact absurd h (by decide)) (by rintro rfl; exact absurd h (by decide))

theorem decimal_head_ne_zero (n : Nat) (h : 0 < n) : (decimal n).head? ≠ some '0' := by
  induction n using Nat.strong_induction_on with
  | _ n ih =>
    unfold decimal
    rw [Nat.toDigits_eq_if (by omega)]
    split
    · rename_i hn
      simp only [List.head?_cons, ne_eq, Option.some.injEq]
      interval_cases n <;> decide
    · rw [List.head?_append_of_ne_nil _ Nat.toDigits_ne_nil]
      exact ih (n / 10) (by omega) (by omega)

theorem scanBase_of_head_ne_zero (c : Char) (s : List Char) (h : c ≠ '0') :
    scanBase (c :: s) = (10, c :: s) := by
  unfold scanBase
  split
  · rename_i heq; simp only [List.cons.injEq] at heq; exact absurd heq.1 h
  · rename_i heq; simp only [List.cons.injEq] at heq; exact absurd heq.1 h
  · rfl

theorem scanBase_zero (rest : List Char) (h : NoAlnum rest) :
    scanBase ('0' :: rest) = (8, '0' :: rest) := by
  match rest with
  | [] => rfl
  | [_] => rfl
  | x :: d :: s =>
    have hx := h x rfl
    have h1 : x ≠ 'x' := by rintro rfl; exact absurd hx (by decide)
    have h2 : x ≠ 'X' := by rintro rfl; exact absurd hx (by decide)
    simp [scanBase, h1, h2]

/-- A decimal number has no leading zero but in 0, which base 0 reads in base 8. -/
theorem scanBase_decimal (n : Nat) (rest : List Char) (h : NoAlnum rest) :
    ∃ base s, scanBase (decimal n ++ rest) = (base, s) ∧ (s.head?.bind (digitVal base)).isSome = true ∧
      scanDigits base 0 s = (n, rest) := by
  obtain ⟨c, ds, hds⟩ := List.exists_cons_of_ne_nil (decimal_ne_nil n)
  by_cases h0 : n = 0
  · subst h0
    have hrest := scanDigits_stop 8 0 rest (by omega) h.noDigit
    refine ⟨8, '0' :: rest, scanBase_zero rest h, rfl, ?_⟩
    simp [digitVal, scanDigits, hrest]
  · have hc : c.isDigit := decimal_isDigit n c (by simp [hds])
    have hne : c ≠ '0' := by
      have := decimal_head_ne_zero n (by omega)
      rw [hds] at this
      simpa using this
    have hscan := scanDigits_decimal n rest h.noDigit
    rw [hds, List.cons_append] at hscan ⊢
    refine ⟨10, c :: (ds ++ rest), scanBase_of_head_ne_zero c _ hne, ?_, hscan⟩
    rw [List.head?_cons, Option.bind_some, digitVal_digit c hc]
    rfl

theorem decimal_scanned (n : Nat) (rest : List Char) :
    (decimal n ++ rest).dropWhile isspace = decimal n ++ rest ∧
      scanSign (decimal n ++ rest) = (false, decimal n ++ rest) := by
  obtain ⟨c, ds, hds⟩ := List.exists_cons_of_ne_nil (decimal_ne_nil n)
  have hc : c.isDigit := decimal_isDigit n c (by simp [hds])
  rw [hds, List.cons_append]
  exact ⟨List.dropWhile_cons_of_neg (by simp [not_isspace_of_isDigit c hc]), scanSign_of_isDigit c _ hc⟩

theorem decimal_head (n : Nat) (rest : List Char) : (decimal n ++ rest).head?.any Char.isDigit = true := by
  obtain ⟨c, ds, hds⟩ := List.exists_cons_of_ne_nil (decimal_ne_nil n)
  have hc : c.isDigit := decimal_isDigit n c (by simp [hds])
  simp [hds, hc]

theorem strtoul_decimal (n : Nat) (rest : List Char) (hn : n ≤ ULONG_MAX) (h : NoAlnum rest) :
    strtoul (decimal n ++ rest) = (n, rest) := by
  obtain ⟨hspace, hsign⟩ := decimal_scanned n rest
  obtain ⟨base, s, hbase, hhead, hdigits⟩ := scanBase_decimal n rest h
  unfold strtoul
  simp only [hspace, hsign, hbase, hhead, if_true, hdigits]
  rw [if_neg (by omega), if_neg Bool.false_ne_true]

/-! ## Cutting and scanning -/

/-- `strsep(&s, stop)` for one separator: the token, and where `s` points then. -/
def strsep (stop : Char) (s : List Char) : List Char × Option (List Char) :=
  match s.dropWhile (· ≠ stop) with
  | [] => (s, none)
  | _ :: rest => (s.takeWhile (· ≠ stop), some rest)

/-- Literal text of a scanf format. -/
def scanLiteral (lit s : List Char) : Option (List Char) :=
  if lit.isPrefixOf s then some (s.drop lit.length) else none

/-- `%<width>[^<stop>]`. -/
def scanSet (width : Nat) (stop : Char) (s : List Char) : Option (List Char) :=
  let w := (s.take width).takeWhile (· ≠ stop)
  if w.isEmpty then none else some w

def LONG_LIMIT : Nat := 9223372036854775808

/-- The long that stands for a sign and digits. -/
def clampLong (neg : Bool) (v : Nat) : Int := if neg then -(min v LONG_LIMIT : Nat) else (min v (LONG_LIMIT - 1) : Nat)

/-- A number of a scanf format is read as a long and cut to an int. -/
def cutLong (neg : Bool) (v : Nat) : BitVec 32 := BitVec.ofInt 32 (clampLong neg v)

/-- `%d`, and what follows it. -/
def scanIntRest (s : List Char) : Option (BitVec 32 × List Char) :=
  let (neg, s) := scanSign (s.dropWhile isspace)
  if s.head?.any Char.isDigit then some (cutLong neg (scanDigits 10 0 s).1, (scanDigits 10 0 s).2) else none

/-- `%d` at the end of a format. -/
def scanInt (s : List Char) : Option (BitVec 32) := (scanIntRest s).map Prod.fst

/-- `%i` -/
def scanAnyInt (s : List Char) : Option (BitVec 32) :=
  let (neg, s) := scanSign (s.dropWhile isspace)
  let (base, s) := scanBase s
  if (s.head?.bind (digitVal base)).isSome then some (cutLong neg (scanDigits base 0 s).1) else none

/-- `strtol(nptr, NULL, 0)` and `strtoll`, where a long has 64 bits. -/
def strtol (nptr : List Char) : Int :=
  let (neg, s) := scanSign (nptr.dropWhile isspace)
  let (base, s) := scanBase s
  if (s.head?.bind (digitVal base)).isSome then clampLong neg (scanDigits base 0 s).1 else 0

/-- The text of `%ld`. -/
def decimal_long (v : Int) : List Char := if v < 0 then '-' :: decimal v.natAbs else decimal v.natAbs

theorem strtol_decimal_long (v : Int) (rest : List Char) (hlow : -(LONG_LIMIT : Int) ≤ v) (hhigh : v < LONG_LIMIT)
    (h : NoAlnum rest) : strtol (decimal_long v ++ rest) = v := by
  obtain ⟨hspace, hsign⟩ := decimal_scanned v.natAbs rest
  obtain ⟨base, s, hbase, hhead, hdigits⟩ := scanBase_decimal v.natAbs rest h
  unfold strtol decimal_long clampLong
  by_cases hneg : v < 0
  · have hminus : ('-' :: (decimal v.natAbs ++ rest)).dropWhile isspace = '-' :: (decimal v.natAbs ++ rest) := rfl
    rw [if_pos hneg, List.cons_append]
    simp only [hminus, scanSign, hbase, hhead, hdigits, if_true]
    omega
  · rw [if_neg hneg]
    simp only [hspace, hsign, hbase, hhead, hdigits, if_true]
    rw [if_neg Bool.false_ne_true]
    omega

theorem ne_of_not_mem (stop : Char) (tok : List Char) (h : stop ∉ tok) : ∀ c ∈ tok, decide (c ≠ stop) = true := by
  intro c hc
  rw [decide_eq_true_eq]
  rintro rfl
  exact h hc

theorem strsep_append (stop : Char) (tok rest : List Char) (h : stop ∉ tok) :
    strsep stop (tok ++ stop :: rest) = (tok, some rest) := by
  have hall := ne_of_not_mem stop tok h
  have hdrop : (tok ++ stop :: rest).dropWhile (· ≠ stop) = stop :: rest := by
    rw [List.dropWhile_append_of_pos hall]
    simp
  have htake : (tok ++ stop :: rest).takeWhile (· ≠ stop) = tok := by
    rw [List.takeWhile_append_of_pos hall]
    simp
  rw [strsep, hdrop, htake]

theorem strsep_last (stop : Char) (tok : List Char) (h : stop ∉ tok) : strsep stop tok = (tok, none) := by
  have hdrop : tok.dropWhile (· ≠ stop) = [] := List.dropWhile_eq_nil_iff.mpr (ne_of_not_mem stop tok h)
  rw [strsep, hdrop]

theorem strsep_spec (stop : Char) (s : List Char) :
    stop ∉ (strsep stop s).1 ∧
      s = (strsep stop s).1 ++ ((strsep stop s).2.elim [] (stop :: ·)) := by
  by_cases h : stop ∈ s
  · obtain ⟨tok, rest, rfl, hnot⟩ := List.eq_append_cons_of_mem h
    rw [strsep_append stop tok rest hnot]
    exact ⟨hnot, rfl⟩
  · rw [strsep_last stop s h]
    exact ⟨h, by simp⟩

theorem scanLiteral_append (lit s : List Char) : scanLiteral lit (lit ++ s) = some s := by
  simp [scanLiteral]

theorem scanLiteral_mismatch (lit lit' s : List Char)
    (h : (lit.zip lit').any (fun p => p.1 != p.2) = true) : scanLiteral lit (lit' ++ s) = none := by
  rw [scanLiteral, if_neg]
  intro hprefix
  rw [List.isPrefixOf_iff_prefix] at hprefix
  induction lit generalizing lit' with
  | nil => simp at h
  | cons c lit ih =>
    cases lit' with
    | nil => simp at h
    | cons c' lit' =>
      obtain ⟨rfl, hrest⟩ := List.cons_prefix_cons.mp hprefix
      exact ih lit' (by simpa using h) hrest

theorem cutLong_eq (n : Nat) (hn : n < LONG_LIMIT) : cutLong false n = BitVec.ofNat 32 n := by
  unfold cutLong clampLong
  rw [if_neg Bool.false_ne_true, Nat.min_eq_left (by omega), BitVec.ofInt_natCast]

theorem scanIntRest_decimal (n : Nat) (hn : n < LONG_LIMIT) (rest : List Char) (h : NoDigit rest) :
    scanIntRest (decimal n ++ rest) = some (BitVec.ofNat 32 n, rest) := by
  obtain ⟨hspace, hsign⟩ := decimal_scanned n rest
  unfold scanIntRest
  simp only [hspace, hsign, decimal_head, scanDigits_decimal n rest h, if_true, cutLong_eq n hn]

theorem scanInt_decimal (n : Nat) (hn : n < LONG_LIMIT) (rest : List Char) (h : NoDigit rest) :
    scanInt (decimal n ++ rest) = some (BitVec.ofNat 32 n) := by
  unfold scanInt
  rw [scanIntRest_decimal n hn rest h]
  rfl

theorem scanAnyInt_decimal (n : Nat) (hn : n < LONG_LIMIT) (rest : List Char) (h : NoAlnum rest) :
    scanAnyInt (decimal n ++ rest) = some (BitVec.ofNat 32 n) := by
  obtain ⟨hspace, hsign⟩ := decimal_scanned n rest
  obtain ⟨base, s, hbase, hhead, hdigits⟩ := scanBase_decimal n rest h
  unfold scanAnyInt
  simp only [hspace, hsign, hbase, hhead, hdigits, if_true, cutLong_eq n hn]

/-- The C string in a buffer of `size` characters. -/
def readString (size : Nat) (buf : Nat → Char) : List Char :=
  ((List.range size).map buf).takeWhile (· ≠ NUL)

theorem readString_eq (size : Nat) (buf : Nat → Char) (text : List Char) (h : IsString buf text)
    (hfit : text.length < size) : readString size buf = text := by
  obtain ⟨k, rfl⟩ : ∃ k, size = text.length + (k + 1) := ⟨size - text.length - 1, by omega⟩
  have htext : (List.range text.length).map buf = text := by
    refine List.ext_getElem (by simp) fun i hi hi' => ?_
    rw [List.getElem_map, List.getElem_range, h.1.1.getElem i hi']
  have hNUL := ne_of_not_mem NUL text h.2
  rw [readString, List.range_add, List.map_append, htext, List.takeWhile_append_of_pos hNUL,
    List.range_succ_eq_map]
  simp [h.1.2]

end CText
