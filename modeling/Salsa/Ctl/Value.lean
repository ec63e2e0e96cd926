import Salsa.Lib.CInt
import Salsa.Ctl.Ascii

/-!
# Values in text

`snd_ctl_ascii_value_parse` of `control.c` goes on to a comma and not behind it, so what is read for all values but
the first is what stands for a comma.
-/

namespace Salsa.Ctl

open CInt CText

/-- `SND_CTL_ELEM_TYPE_*` -/
inductive SndCtlElemType
  | none
  | boolean
  | integer
  | enumerated
  | bytes
  | iec958
  | integer64
deriving DecidableEq

/-- `snd_ctl_elem_info_t`, with the item of an enumerated element and the C string of its name. -/
structure SndCtlElemInfo where
  type : SndCtlElemType
  count : BitVec 32
  items : BitVec 32
  item : BitVec 32
  name : List Char

/-- `snd_ctl_elem_value_t`. A long has 64 bits, so the values of both integer types are the same. -/
structure SndCtlElemValue where
  value : Nat → BitVec 64
  item : Nat → BitVec 32

def SndCtlElemValue.set (dst : SndCtlElemValue) (idx : Nat) (v : BitVec 64) : SndCtlElemValue :=
  { dst with value := Function.update dst.value idx v }

def SndCtlElemValue.set_item (dst : SndCtlElemValue) (idx : Nat) (v : BitVec 32) : SndCtlElemValue :=
  { dst with item := Function.update dst.item idx v }

/-- What `snd_ctl_elem_info` answers; `none` for an error. -/
abbrev ElemInfo := SndCtlElemInfo → Option SndCtlElemInfo

def yes : List (List Char) := [['o', 'n'], ['u', 'p'], ['y', 'e', 's'], ['t', 'r', 'u', 'e']]

/-- It returns 1 at the first word that `ptr` does not begin with. -/
def match_yes (ptr : List Char) : Int := if yes.any fun p => !strncasecmpEq ptr p p.length then 1 else 0

/-- The loop of `get_enum_index`, from item `i` on. -/
def enum_loop (handle : ElemInfo) (ptr : List Char) (info : SndCtlElemInfo) (i : Nat) : C (Int × SndCtlElemInfo) :=
  if 2147483647 < i then .error .overflow
  else if i < info.items.toNat then
    match handle { info with item := BitVec.ofNat 32 i } with
    | none => return (-1, { info with item := BitVec.ofNat 32 i })
    | some info =>
      if strncmpEq ptr info.name info.name.length then return ((i : Int), info) else enum_loop handle ptr info (i + 1)
  else return (-1, info)
termination_by 2147483648 - i

def get_enum_index (handle : ElemInfo) (info : SndCtlElemInfo) (ptr : List Char) : C (Int × SndCtlElemInfo) :=
  enum_loop handle ptr info 0

def TOGGLE : List Char := ['t', 'o', 'g', 'g', 'l', 'e']

def boolean_value (old : BitVec 64) (ptr : List Char) : BitVec 64 :=
  if strncasecmpEq ptr TOGGLE 6 then if old = 0#64 then 1#64 else 0#64
  else if match_yes ptr ≠ 0 ∨ ptr.head? = some '1' then 1#64
  else 0#64

/-- The switch; there is no value where the function returns -EINVAL. -/
def parse_one (handle : ElemInfo) (idx : Nat) (dst : SndCtlElemValue) (info : SndCtlElemInfo) (ptr : List Char) :
    C (Option SndCtlElemValue × SndCtlElemInfo) :=
  match info.type with
  | .boolean => return (some (dst.set idx (boolean_value (dst.value idx) ptr)), info)
  | .integer => return (some (dst.set idx (BitVec.ofInt 64 (strtol ptr))), info)
  | .integer64 => return (some (dst.set idx (BitVec.ofInt 64 (strtol ptr))), info)
  | .enumerated => do
    let (tmp, info) ← get_enum_index handle info ptr
    if tmp < 0 then return (none, info) else return (some (dst.set_item idx (BitVec.ofInt 32 tmp)), info)
  | _ => return (some dst, info)

/-- The loop over the values, of which `n` are left up to 128. -/
def value_loop (handle : ElemInfo) :
    Nat → Nat → SndCtlElemValue → SndCtlElemInfo → List Char → C (Int × SndCtlElemValue × SndCtlElemInfo)
  | 0, _, dst, info, _ => return (0, dst, info)
  | n + 1, idx, dst, info, ptr =>
    if idx < info.count.toNat ∧ ptr ≠ [] then do
      let (parsed, info) ← parse_one handle idx dst info ptr
      match parsed with
      | none => return (-EINVAL, dst, info)
      | some dst => value_loop handle n (idx + 1) dst info (ptr.dropWhile (· ≠ ','))
    else return (0, dst, info)

def snd_ctl_ascii_value_parse (handle : ElemInfo) (dst : SndCtlElemValue) (info : SndCtlElemInfo) (ptr : List Char) :
    C (Int × SndCtlElemValue × SndCtlElemInfo) :=
  value_loop handle 128 0 dst info ptr

/-! ## Tokens -/

/-- Texts with single commas between them. -/
def joined_texts : List (List Char) → List Char
  | [] => []
  | first :: rest => joined first rest

/-- The words for a truth value. -/
def truths : List (List Char × BitVec 64) :=
  [(['o', 'n'], 1#64), (['y', 'e', 's'], 1#64), (['t', 'r', 'u', 'e'], 1#64), (['u', 'p'], 1#64), (['1'], 1#64),
   (['o', 'f', 'f'], 0#64), (['n', 'o'], 0#64), (['f', 'a', 'l', 's', 'e'], 0#64), (['d', 'o', 'w', 'n'], 0#64),
   (['0'], 0#64)]

/-- A text for a value. -/
def Renders (type : SndCtlElemType) (token : List Char × BitVec 64) : Prop :=
  match type with
  | .boolean => token ∈ truths
  | .integer => token.1 = decimal_long token.2.toInt
  | .integer64 => token.1 = decimal_long token.2.toInt
  | _ => False

/-- The values of the tokens, and behind them the old ones. -/
def Assigned (handle : ElemInfo) (dst : SndCtlElemValue) (info : SndCtlElemInfo)
    (tokens : List (List Char × BitVec 64)) :
    Prop :=
  ∃ dst' info', snd_ctl_ascii_value_parse handle dst info (joined_texts (tokens.map Prod.fst)) = .ok (0, dst', info') ∧
    ∀ i, dst'.value i = (tokens.map Prod.snd).getD i (dst.value i)

/-- What is read where a comma is. -/
def at_comma : SndCtlElemType → BitVec 64
  | .boolean => 1#64
  | _ => 0#64

/-! ## What is read -/

theorem strncasecmpEq_words (ptr : List Char) (h : strncasecmpEq ptr ['o', 'n'] 2 = true) :
    strncasecmpEq ptr ['u', 'p'] 2 = false := by
  unfold strncasecmpEq at *
  rw [eq_of_beq h]
  rfl

/-- No text begins with all of the words. -/
theorem match_yes_eq (ptr : List Char) : match_yes ptr = 1 := by
  unfold match_yes
  rw [if_pos]
  unfold yes
  by_cases h : strncasecmpEq ptr ['o', 'n'] 2 = true
  · have hup := strncasecmpEq_words ptr h
    simp [hup]
  · simp [h]

theorem boolean_value_eq (old : BitVec 64) (ptr : List Char) (h : strncasecmpEq ptr TOGGLE 6 = false) :
    boolean_value old ptr = 1#64 := by
  unfold boolean_value
  rw [h, if_neg Bool.false_ne_true, match_yes_eq, if_pos (.inl (by decide))]

theorem at_comma_eq (handle : ElemInfo) (idx : Nat) (dst : SndCtlElemValue) (info : SndCtlElemInfo) (s : List Char)
    (htype : info.type = .boolean ∨ info.type = .integer ∨ info.type = .integer64) :
    parse_one handle idx dst info (',' :: s) = .ok (some (dst.set idx (at_comma info.type)), info) := by
  have hstrtol : strtol (',' :: s) = 0 := rfl
  unfold parse_one
  rcases htype with htype | htype | htype
  · rw [htype, boolean_value_eq _ _ rfl]
    rfl
  · rw [htype, hstrtol]
    rfl
  · rw [htype, hstrtol]
    rfl

/-- The first value; a boolean is always true. -/
def first_value (type : SndCtlElemType) (v : BitVec 64) : BitVec 64 := if type = .boolean then 1#64 else v

theorem first_value_iff (type : SndCtlElemType) (v : BitVec 64) :
    first_value type v = v ↔ (type = .boolean → v = 1#64) := by
  unfold first_value
  split
  · rename_i htype
    simp only [htype, true_imp_iff, eq_comm]
  · rename_i htype
    simp only [htype, false_imp_iff]

theorem truths_shape : ∀ token ∈ truths, ',' ∉ token.1 ∧ token.1 ≠ [] := by decide

theorem truths_toggle (token : List Char × BitVec 64) (h : token ∈ truths) (rest : List Char) :
    strncasecmpEq (token.1 ++ rest) TOGGLE 6 = false := by
  unfold truths at h
  simp only [List.mem_cons, List.not_mem_nil, or_false] at h
  rcases h with rfl | rfl | rfl | rfl | rfl | rfl | rfl | rfl | rfl | rfl <;>
    simp [strncasecmpEq, TOGGLE]

theorem long_eq (v : BitVec 64) (rest : List Char) (h : NoAlnum rest) :
    BitVec.ofInt 64 (strtol (decimal_long v.toInt ++ rest)) = v := by
  have hlow := BitVec.le_toInt v
  have hhigh := BitVec.toInt_lt (x := v)
  rw [strtol_decimal_long v.toInt rest (by unfold LONG_LIMIT; omega) (by unfold LONG_LIMIT; omega) h,
    BitVec.ofInt_toInt]

theorem decimal_long_shape (v : Int) : ',' ∉ decimal_long v ∧ decimal_long v ≠ [] := by
  have hdigits : ',' ∉ decimal v.natAbs := fun h => absurd (decimal_isDigit _ _ h) (by decide)
  unfold decimal_long
  split
  · exact ⟨List.not_mem_cons_of_ne_of_not_mem (by decide) hdigits, List.cons_ne_nil _ _⟩
  · exact ⟨hdigits, decimal_ne_nil _⟩

theorem renders_shape (type : SndCtlElemType) (token : List Char × BitVec 64) (h : Renders type token) :
    (type = .boolean ∨ type = .integer ∨ type = .integer64) ∧ ',' ∉ token.1 ∧ token.1 ≠ [] := by
  unfold Renders at h
  cases type with
  | boolean => exact ⟨.inl rfl, truths_shape token h⟩
  | integer => exact ⟨.inr (.inl rfl), h ▸ decimal_long_shape _⟩
  | integer64 => exact ⟨.inr (.inr rfl), h ▸ decimal_long_shape _⟩
  | none => exact h.elim
  | enumerated => exact h.elim
  | bytes => exact h.elim
  | iec958 => exact h.elim

theorem first_value_eq (handle : ElemInfo) (idx : Nat) (dst : SndCtlElemValue) (info : SndCtlElemInfo)
    (token : List Char × BitVec 64) (rest : List Char) (h : Renders info.type token) (hrest : NoAlnum rest) :
    parse_one handle idx dst info (token.1 ++ rest) =
      .ok (some (dst.set idx (first_value info.type token.2)), info) := by
  unfold parse_one first_value
  unfold Renders at h
  cases htype : info.type with
  | boolean =>
    rw [htype] at h
    dsimp only
    rw [boolean_value_eq _ _ (truths_toggle token h rest)]
    rfl
  | integer =>
    rw [htype] at h
    dsimp only at h ⊢
    rw [h, long_eq _ _ hrest]
    rfl
  | integer64 =>
    rw [htype] at h
    dsimp only at h ⊢
    rw [h, long_eq _ _ hrest]
    rfl
  | none | enumerated | bytes | iec958 =>
    rw [htype] at h
    exact h.elim

/-! ## The loop -/

theorem value_loop_step (handle : ElemInfo) (n idx : Nat) (dst dst' : SndCtlElemValue) (info info' : SndCtlElemInfo)
    (ptr : List Char) (hidx : idx < info.count.toNat) (hptr : ptr ≠ [])
    (hone : parse_one handle idx dst info ptr = .ok (some dst', info')) :
    value_loop handle (n + 1) idx dst info ptr =
      value_loop handle n (idx + 1) dst' info' (ptr.dropWhile (· ≠ ',')) := by
  rw [value_loop, if_pos ⟨hidx, hptr⟩, hone]
  rfl

/-- The loop does not get past a comma. -/
theorem value_loop_comma (handle : ElemInfo) (n idx : Nat) (dst : SndCtlElemValue) (info : SndCtlElemInfo)
    (s : List Char)
    (htype : info.type = .boolean ∨ info.type = .integer ∨ info.type = .integer64) (hn : info.count.toNat ≤ idx + n) :
    ∃ dst', value_loop handle n idx dst info (',' :: s) = .ok (0, dst', info) ∧
      ∀ i, dst'.value i = if idx ≤ i ∧ i < info.count.toNat then at_comma info.type else dst.value i := by
  induction n generalizing idx dst with
  | zero => exact ⟨dst, rfl, fun i => by rw [if_neg (by omega)]⟩
  | succ n ih =>
    by_cases hidx : idx < info.count.toNat
    · obtain ⟨dst', hloop, hvalue⟩ := ih (idx + 1) (dst.set idx (at_comma info.type)) (by omega)
      have hone := at_comma_eq handle idx dst info s htype
      refine ⟨dst', ?_, fun i => ?_⟩
      · rw [value_loop_step handle n idx dst _ info info _ hidx (List.cons_ne_nil _ _) hone,
          List.dropWhile_cons_of_neg (by decide)]
        exact hloop
      · rw [hvalue i]
        unfold SndCtlElemValue.set
        dsimp only
        rcases Nat.lt_trichotomy i idx with hlt | rfl | hlt
        · rw [if_neg (by omega), if_neg (by omega), Function.update_of_ne (by omega)]
        · rw [if_neg (by omega), if_pos ⟨Nat.le_refl i, hidx⟩, Function.update_self]
        · rw [Function.update_of_ne (by omega)]
          simp only [show idx + 1 ≤ i ↔ idx ≤ i by omega]
    · refine ⟨dst, ?_, fun i => by rw [if_neg (by omega)]⟩
      rw [value_loop, if_neg fun h => hidx h.1]
      rfl

theorem joined_texts_cons (first : List Char) (rest : List (List Char)) :
    joined_texts (first :: rest) = first ++ rest.flatMap (',' :: ·) := rfl

theorem dropWhile_token (tok : List Char) (rest : List (List Char)) (h : ',' ∉ tok) :
    (tok ++ rest.flatMap (',' :: ·)).dropWhile (· ≠ ',') = rest.flatMap (',' :: ·) := by
  rw [List.dropWhile_append_of_pos (ne_of_not_mem ',' tok h)]
  cases rest with
  | nil => rfl
  | cons next rest => rw [List.flatMap_cons, List.cons_append, List.dropWhile_cons_of_neg (by decide)]

theorem noAlnum_commas (rest : List (List Char)) : NoAlnum (rest.flatMap (',' :: ·)) := by
  cases rest with
  | nil =>
    intro c hc
    cases hc
  | cons next rest =>
    intro c hc
    cases hc
    rfl

/-- The first value is read from the first token, and the others from the comma behind it. -/
theorem value_parse_eq (handle : ElemInfo) (dst : SndCtlElemValue) (info : SndCtlElemInfo)
    (token : List Char × BitVec 64) (rest : List (List Char)) (hpos : 0 < info.count.toNat)
    (hcount : info.count.toNat ≤ 128)
    (h : Renders info.type token) :
    ∃ dst', snd_ctl_ascii_value_parse handle dst info (joined_texts (token.1 :: rest)) = .ok (0, dst', info) ∧
      ∀ i, dst'.value i =
        if i = 0 then first_value info.type token.2
        else if rest ≠ [] ∧ i < info.count.toNat then at_comma info.type
        else dst.value i := by
  obtain ⟨htype, hcomma, hne⟩ := renders_shape info.type token h
  have hone := first_value_eq handle 0 dst info token _ h (noAlnum_commas rest)
  have hloop := value_loop_step handle 127 0 dst _ info info _ hpos (List.append_ne_nil_of_left_ne_nil hne _) hone
  rw [dropWhile_token token.1 rest hcomma] at hloop
  unfold snd_ctl_ascii_value_parse
  rw [joined_texts_cons, hloop]
  cases rest with
  | nil =>
    refine ⟨dst.set 0 (first_value info.type token.2), ?_, fun i => ?_⟩
    · rw [List.flatMap_nil, value_loop, if_neg fun hptr => hptr.2 rfl]
      rfl
    · unfold SndCtlElemValue.set
      dsimp only
      by_cases hi : i = 0
      · rw [hi, Function.update_self, if_pos rfl]
      · rw [Function.update_of_ne hi, if_neg hi, if_neg fun hrest => hrest.1 rfl]
  | cons next rest =>
    rw [List.flatMap_cons, List.cons_append]
    obtain ⟨dst', heq, hvalue⟩ := value_loop_comma handle 127 1 (dst.set 0 (first_value info.type token.2)) info
      (next ++ rest.flatMap (',' :: ·)) htype (by omega)
    refine ⟨dst', heq, fun i => ?_⟩
    rw [hvalue i]
    unfold SndCtlElemValue.set
    dsimp only
    by_cases hi : i = 0
    · rw [if_neg (by omega), hi, Function.update_self, if_pos rfl]
    · rw [Function.update_of_ne hi, if_neg hi]
      simp only [ne_eq, List.cons_ne_nil, not_false_eq_true, true_and, show 1 ≤ i ↔ True by simp; omega]

theorem assigned_iff (handle : ElemInfo) (dst dst' : SndCtlElemValue) (info : SndCtlElemInfo)
    (tokens : List (List Char × BitVec 64))
    (heq : snd_ctl_ascii_value_parse handle dst info (joined_texts (tokens.map Prod.fst)) = .ok (0, dst', info)) :
    Assigned handle dst info tokens ↔ ∀ i, dst'.value i = (tokens.map Prod.snd).getD i (dst.value i) := by
  constructor
  · rintro ⟨d, info', hd, hall⟩
    cases hd.symm.trans heq
    exact hall
  · exact fun hall => ⟨dst', info, heq, hall⟩

/-- A list of values is read right if the second one and those behind it are to be what is read at a comma, up to the
number of values; and a boolean if it is true. -/
theorem values_assigned_iff (handle : ElemInfo) (dst : SndCtlElemValue) (info : SndCtlElemInfo)
    (tokens : List (List Char × BitVec 64)) (hcount : info.count.toNat ≤ 64) (hlen : tokens.length ≤ info.count.toNat)
    (hrenders : ∀ token ∈ tokens, Renders info.type token) :
    Assigned handle dst info tokens ↔
      (info.type = .boolean → ∀ token ∈ tokens.head?, token.2 = 1#64) ∧
        (1 < tokens.length → ∀ i, 1 ≤ i → i < info.count.toNat →
          (tokens.map Prod.snd).getD i (dst.value i) = at_comma info.type) := by
  cases tokens with
  | nil =>
    refine iff_of_true ⟨dst, info, ?_, fun i => rfl⟩ ⟨fun _ token htoken => ?_, fun hlt => ?_⟩
    · unfold snd_ctl_ascii_value_parse
      rw [value_loop, if_neg fun hptr => hptr.2 rfl]
      rfl
    · cases htoken
    · exact absurd hlt (by decide)
  | cons token rest =>
    have hpos : 0 < info.count.toNat := Nat.lt_of_lt_of_le (Nat.succ_pos _) hlen
    obtain ⟨dst', heq, hvalue⟩ := value_parse_eq handle dst info token (rest.map Prod.fst) hpos (by omega)
      (hrenders token List.mem_cons_self)
    have hfirst := first_value_iff info.type token.2
    have hrest : rest.map Prod.fst ≠ [] ↔ 1 < (token :: rest).length := by
      cases rest <;> simp
    rw [assigned_iff handle dst dst' info (token :: rest) heq]
    constructor
    · intro hall
      constructor
      · intro htype t ht
        have hzero := hall 0
        rw [hvalue 0, if_pos rfl] at hzero
        cases ht
        exact hfirst.mp hzero htype
      · intro hmore i hi hlt
        rw [← hall i, hvalue i, if_neg (by omega), if_pos ⟨hrest.mpr hmore, hlt⟩]
    · rintro ⟨hbool, hmore⟩ i
      rw [hvalue i]
      by_cases hi : i = 0
      · rw [hi, if_pos rfl]
        exact hfirst.mpr fun htype => hbool htype token rfl
      · rw [if_neg hi]
        by_cases hfilled : rest.map Prod.fst ≠ [] ∧ i < info.count.toNat
        · rw [if_pos hfilled]
          exact (hmore (hrest.mp hfilled.1) i (by omega) hfilled.2).symm
        · -- Behind the tokens, or there is one only.
          rw [if_neg hfilled, List.getD_eq_default]
          rw [List.length_map]
          by_contra hlt
          exact hfilled ⟨hrest.mpr (by omega), by omega⟩

/-- A stereo switch that is on for both channels. -/
theorem values_assigned_iff_on :
    Assigned (fun _ => none) ⟨fun _ => 0#64, fun _ => 0#32⟩ ⟨.boolean, 2#32, 0#32, 0#32, []⟩
      [(['o', 'n'], 1#64), (['u', 'p'], 1#64)] :=
  (values_assigned_iff (fun _ => none) ⟨fun _ => 0#64, fun _ => 0#32⟩ ⟨.boolean, 2#32, 0#32, 0#32, []⟩
    [(['o', 'n'], 1#64), (['u', 'p'], 1#64)] (by decide) (by decide) (by unfold Renders truths; decide)).mpr
    ⟨fun _ token htoken => by cases htoken; rfl, fun _ i hi hlt => by
      obtain rfl : i = 1 := by
        have htwo : i < 2 := hlt
        omega
      rfl⟩

/-- A switch that is to be off is on; and the second channel of a volume is 0. -/
theorem second_value_is_lost :
    (¬ Assigned (fun _ => none) ⟨fun _ => 0#64, fun _ => 0#32⟩ ⟨.boolean, 1#32, 0#32, 0#32, []⟩
        [(['o', 'f', 'f'], 0#64)]) ∧
      ¬ Assigned (fun _ => none) ⟨fun _ => 0#64, fun _ => 0#32⟩ ⟨.integer, 2#32, 0#32, 0#32, []⟩
        [(['1'], 1#64), (['2'], 2#64)] := by
  constructor
  · rintro ⟨d, info', hd, hall⟩
    obtain ⟨dst', heq, hvalue⟩ := value_parse_eq (fun _ => none) ⟨fun _ => 0#64, fun _ => 0#32⟩
      ⟨.boolean, 1#32, 0#32, 0#32, []⟩ (['o', 'f', 'f'], 0#64) [] (by decide) (by decide)
      (by unfold Renders truths; decide)
    cases hd.symm.trans heq
    exact absurd ((hvalue 0).symm.trans (hall 0)) (by decide)
  · rintro ⟨d, info', hd, hall⟩
    obtain ⟨dst', heq, hvalue⟩ := value_parse_eq (fun _ => none) ⟨fun _ => 0#64, fun _ => 0#32⟩
      ⟨.integer, 2#32, 0#32, 0#32, []⟩ (['1'], 1#64) [['2']] (by decide) (by decide) (by unfold Renders; decide)
    cases hd.symm.trans heq
    exact absurd ((hvalue 1).symm.trans (hall 1)) (by decide)

end Salsa.Ctl
