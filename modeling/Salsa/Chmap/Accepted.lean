import Mathlib.Data.List.Forall2
import Mathlib.Data.List.TakeWhile
import Salsa.Chmap.RoundTrip

/-!
# What the channel-map parser accepts

An accepted text is split into tokens. The map is printable and stable exactly when the
numbers that its tokens hold fit into a position.
-/

open CText

namespace Salsa.Chmap

/-! ## Tokens -/

def word (token : List Char) : List Char := token.takeWhile Char.isAlphanum

def behind (token : List Char) : List Char := token.drop (word token).length

def followed_by_INV (token : List Char) : Bool := strncmpEq (behind token) INV 5

def next_token (token : List Char) : List Char :=
  (if followed_by_INV token then (behind token).drop 5 else behind token).dropWhile fun c => !c.isAlphanum

/-- The tokens of a text, each with all the text from there on. -/
def tokens : Nat → List Char → List (List Char)
  | 0, _ => []
  | slots + 1, str =>
    str :: if (next_token str).isEmpty then [] else tokens slots (next_token str)

/-- The number that a token holds and what follows that number, if it is no name. -/
def token_number (token : List Char) : Option (Nat × List Char) :=
  if token.head?.any Char.isDigit then some (strtoul token)
  else if strncasecmpEq token ['c', 'h'] 2 then some (strtoul (token.drop 2))
  else none

/-- The number of the token keeps to the bits of a position, has the phase bit (or ends in
front of an "[INV]" of any case) only where the token is followed by "[INV]", and, behind
a "ch", names a position or has the driver's bit. -/
def NumberFits (token : List Char) : Prop :=
  ∀ v p, token_number token = some (v, p) →
    v % 2 ^ 32 < 2 ^ 18 ∧
    (v.testBit 16 ∨ strncasecmpEq p INV 5 → followed_by_INV token) ∧
    (token.head?.any Char.isDigit = false → v.testBit 17 ∨ v % 2 ^ 16 ≤ SND_CHMAP_LAST)

/-! ## The channel of a token -/

/-- The channel that the parser makes of a token. -/
def token_position (token : List Char) : BitVec 32 :=
  let val := str_to_chmap token (word token).length
  if followed_by_INV token then val ||| SND_CHMAP_PHASE_INVERSE else val

/-- What the parser checks of a token: no "[inv]" of another case follows, because that
would be read as the next token. -/
structure Accepts (token : List Char) (pos : BitVec 32) : Prop where
  position : pos = token_position token
  nonneg : (str_to_chmap token (word token).length).msb = false
  exact_INV : strncasecmpEq (behind token) INV 5 = true → followed_by_INV token = true

theorem chmap_parse_loop_eq (slots : Nat) (str : List Char) :
    chmap_parse_loop (slots + 1) str =
      if (word str).length = 0 then none
      else if (str_to_chmap str (word str).length).msb then none
      else if (next_token str).isEmpty then some [token_position str]
      else (chmap_parse_loop slots (next_token str)).map (token_position str :: ·) := by
  have hhead : ((behind str).head? == some '[' && followed_by_INV str) = followed_by_INV str := by
    unfold followed_by_INV strncmpEq
    cases behind str with
    | nil => rfl
    | cons c cs => by_cases hc : c = '[' <;> simp [hc, INV]
  unfold next_token token_position
  rw [← hhead]
  rfl

theorem toLower_toNat (c : Char) :
    c.toLower.toNat = if 65 ≤ c.toNat ∧ c.toNat ≤ 90 then c.toNat + 32 else c.toNat := by
  unfold Char.toLower
  split
  · next h =>
    have h1 : 65 ≤ c.toNat := h.1
    have h2 : c.toNat ≤ 90 := h.2
    have hadd : (c.val + ('a'.val - 'A'.val)).toNat = (c.toNat + 32) % 2 ^ 32 := rfl
    rw [if_pos ⟨h1, h2⟩, ← Nat.mod_eq_of_lt (by omega : c.toNat + 32 < 2 ^ 32), ← hadd]
    rfl
  · next h =>
    rw [if_neg]
    intro hc
    exact h ⟨hc.1, hc.2⟩

theorem isAlphanum_iff (c : Char) : c.isAlphanum = true ↔
    (65 ≤ c.toNat ∧ c.toNat ≤ 90) ∨ (97 ≤ c.toNat ∧ c.toNat ≤ 122) ∨ (48 ≤ c.toNat ∧ c.toNat ≤ 57) := by
  rw [Char.isAlphanum, Bool.or_eq_true, isAlpha_iff, Char.isDigit_iff_toNat, or_assoc]
  rfl

theorem names_not_i : ∀ name ∈ _snd_chmap_names, (name.take 1).map Char.toLower ≠ ['i'] ∧ 1 ≤ name.length := by
  decide

theorem strncasecmpEq_take (s t : List Char) (n k : Nat) (hk : k ≤ n) (h : strncasecmpEq s t n = true) :
    (s.take k).map Char.toLower = (t.take k).map Char.toLower := by
  simp only [strncasecmpEq, beq_iff_eq] at h
  have := congrArg (List.take k) h
  simpa [← List.map_take, List.take_take, Nat.min_eq_left hk] using this

theorem str_to_chmap_i (c : Char) (rest : List Char) (len : Nat) (hc : c.toLower = 'i') :
    str_to_chmap (c :: rest) len = -1#32 := by
  have hnat := toLower_toNat c
  rw [hc, show 'i'.toNat = 105 from rfl] at hnat
  have hdigit : (c :: rest).head?.any Char.isDigit = false := by
    by_contra hd
    simp only [List.head?_cons, Option.any_some, Bool.not_eq_false] at hd
    have := Char.isDigit_iff_toNat.mp hd
    simp at this
    split_ifs at hnat <;> omega
  have hch : strncasecmpEq (c :: rest) ['c', 'h'] 2 = false := by
    by_contra h
    rw [Bool.not_eq_false] at h
    have := strncasecmpEq_take _ _ 2 1 (by omega) h
    simp [hc] at this
  have hfind : _snd_chmap_names.findIdx? (name_matches (c :: rest) len) = none := by
    rw [List.findIdx?_eq_none_iff]
    intro name hname
    obtain ⟨hi, hlen⟩ := names_not_i name hname
    by_contra hmatch
    simp only [name_matches, Bool.not_eq_false, Bool.and_eq_true] at hmatch
    have := strncasecmpEq_take _ _ _ 1 hlen hmatch.1.2
    simp only [List.take_succ_cons, List.take_zero, List.map_cons, hc, List.map_nil] at this
    exact hi this.symm
  simp only [str_to_chmap, hdigit, hch, hfind, Bool.false_eq_true, if_false]

/-- "[inv]" of another case leaves a word behind that no channel has. -/
theorem next_token_refused (token : List Char) (hci : strncasecmpEq (behind token) INV 5 = true)
    (hexact : followed_by_INV token = false) :
    (next_token token).isEmpty = false ∧ ∀ len, str_to_chmap (next_token token) len = -1#32 := by
  have h2 := strncasecmpEq_take _ _ 5 2 (by omega) hci
  match hb : behind token with
  | [] => simp [hb, INV] at h2
  | [_] => simp [hb, INV] at h2
  | c :: d :: rest =>
    rw [hb] at h2
    obtain ⟨hc, hd⟩ : c.toLower = '[' ∧ d.toLower = 'i' := by simpa [INV] using h2
    have hcn := toLower_toNat c
    have hdn := toLower_toNat d
    rw [hc, show '['.toNat = 91 from rfl] at hcn
    rw [hd, show 'i'.toNat = 105 from rfl] at hdn
    have hca : c.isAlphanum = false := by
      rw [← Bool.not_eq_true, isAlphanum_iff]
      split_ifs at hcn <;> omega
    have hda : d.isAlphanum = true := by
      rw [isAlphanum_iff]
      split_ifs at hdn <;> omega
    have hnext : next_token token = d :: rest := by simp [next_token, hexact, hb, hca, hda]
    rw [hnext]
    exact ⟨rfl, fun len => str_to_chmap_i d rest len hd⟩

theorem chmap_parse_loop_tokens (slots : Nat) (str : List Char) (m : List (BitVec 32))
    (h : chmap_parse_loop slots str = some m) : List.Forall₂ Accepts (tokens slots str) m := by
  induction slots generalizing str m with
  | zero => cases h
  | succ slots ih =>
    rw [chmap_parse_loop_eq] at h
    split_ifs at h with hlen hmsb hend
    · obtain rfl : [token_position str] = m := Option.some.inj h
      rw [tokens, if_pos hend]
      refine List.Forall₂.cons ⟨rfl, by simpa using hmsb, fun hci => ?_⟩ List.Forall₂.nil
      by_contra hexact
      have := (next_token_refused str hci (by simpa using hexact)).1
      rw [hend] at this
      cases this
    · obtain ⟨rest, hrest, rfl⟩ := Option.map_eq_some_iff.mp h
      rw [tokens, if_neg hend]
      refine List.Forall₂.cons ⟨rfl, by simpa using hmsb, fun hci => ?_⟩ (ih _ _ hrest)
      by_contra hexact
      cases slots with
      | zero => cases hrest
      | succ slots =>
        rw [chmap_parse_loop_eq, (next_token_refused str hci (by simpa using hexact)).2,
          if_pos (by decide : (-1#32).msb = true), ite_self] at hrest
        cases hrest

/-! ## The bits of a channel -/

/-- The channel is a position of the map format, in the phase that the token says. -/
structure PositionOk (token : List Char) (pos : BitVec 32) : Prop where
  valid : ValidPosition pos
  phase : pos &&& SND_CHMAP_PHASE_INVERSE ≠ 0#32 ↔ followed_by_INV token = true

/-- A number, the driver's bit if `d`, and the phase bit if `f`. -/
def with_flags (v : Nat) (d f : Bool) : BitVec 32 :=
  BitVec.ofNat 32 v ||| (if d then SND_CHMAP_DRIVER_SPEC else 0#32) |||
    (if f then SND_CHMAP_PHASE_INVERSE else 0#32)

theorem ofNat_bit (v i : Nat) (hi : i < 32) : (BitVec.ofNat 32 v).getLsbD i = v.testBit i := by
  rw [BitVec.getLsbD_ofNat, decide_eq_true hi, Bool.true_and]

theorem with_flags_bit (v : Nat) (d f : Bool) (i : Nat) (hi : i < 32) :
    (with_flags v d f).getLsbD i = (v.testBit i || (d && decide (i = 17)) || (f && decide (i = 16))) := by
  have hphase := phase_inverse_bit i hi
  have hdriver := driver_spec_bit i hi
  rw [with_flags, BitVec.getLsbD_or, BitVec.getLsbD_or, ofNat_bit v i hi]
  cases d <;> cases f <;> simp [hphase, hdriver]

theorem lt_pow_iff (x : BitVec 32) (k : Nat) :
    x.toNat < 2 ^ k ↔ ∀ i, k ≤ i → i < 32 → x.getLsbD i = false := by
  constructor
  · exact fun h i hk _ => getLsbD_of_lt_pow x k i h hk
  · intro h
    refine Nat.lt_pow_two_of_testBit _ fun i hk => ?_
    by_cases hi : i < 32
    · exact h i hk hi
    · exact BitVec.getLsbD_of_ge x i (by omega)

theorem with_flags_lt (v : Nat) (d f : Bool) :
    (with_flags v d f).toNat < 2 ^ 18 ↔ v % 2 ^ 32 < 2 ^ 18 := by
  rw [show v % 2 ^ 32 = (BitVec.ofNat 32 v).toNat from rfl, lt_pow_iff, lt_pow_iff]
  refine forall_congr' fun i => forall_congr' fun hk => forall_congr' fun hi => ?_
  have h16 : i ≠ 16 := by omega
  have h17 : i ≠ 17 := by omega
  rw [with_flags_bit v d f i hi, ofNat_bit v i hi]
  simp [h16, h17]

theorem with_flags_number (v : Nat) (d f : Bool) :
    (with_flags v d f &&& SND_CHMAP_POSITION_MASK).toNat = v % 2 ^ 16 := by
  apply Nat.eq_of_testBit_eq
  intro i
  rw [Nat.testBit_mod_two_pow]
  change (with_flags v d f &&& SND_CHMAP_POSITION_MASK).getLsbD i = _
  by_cases hi : i < 32
  · rw [BitVec.getLsbD_and, position_mask_bit i hi, with_flags_bit v d f i hi]
    by_cases hlt : i < 16
    · have h16 : i ≠ 16 := by omega
      have h17 : i ≠ 17 := by omega
      simp [hlt, h16, h17]
    · simp [hlt]
  · rw [BitVec.getLsbD_of_ge _ i (by omega)]
    simp
    omega

theorem with_flags_ok_iff (token : List Char) (v : Nat) (d f : Bool) :
    PositionOk token (with_flags v d f) ↔
      v % 2 ^ 32 < 2 ^ 18 ∧ ((v.testBit 16 ∨ f = true) ↔ followed_by_INV token = true) ∧
        (d = false → v.testBit 17 ∨ v % 2 ^ 16 ≤ SND_CHMAP_LAST) := by
  have hphase : with_flags v d f &&& SND_CHMAP_PHASE_INVERSE ≠ 0#32 ↔ v.testBit 16 ∨ f = true := by
    rw [Ne, phase_inverse_clear, with_flags_bit v d f 16 (by omega)]
    cases v.testBit 16 <;> simp
  have hdriver : with_flags v d f &&& SND_CHMAP_DRIVER_SPEC = 0#32 ↔
      v.testBit 17 = false ∧ d = false := by
    rw [driver_spec_clear, with_flags_bit v d f 17 (by omega)]
    simp
  constructor
  · rintro ⟨⟨hlt, hname⟩, hinv⟩
    refine ⟨(with_flags_lt v d f).mp hlt, hphase.symm.trans hinv, fun hd => ?_⟩
    by_cases h17 : v.testBit 17
    · exact Or.inl h17
    · have := hname (hdriver.mpr ⟨by simpa using h17, hd⟩)
      rw [with_flags_number] at this
      exact Or.inr this
  · rintro ⟨hlt, hinv, hname⟩
    refine ⟨⟨(with_flags_lt v d f).mpr hlt, fun hclear => ?_⟩, hphase.trans hinv⟩
    obtain ⟨h17, hd⟩ := hdriver.mp hclear
    rw [with_flags_number]
    exact (hname hd).resolve_left (by simp [h17])

/-! ## One token -/

theorem phase_twice (x : BitVec 32) (ci fol : Bool) :
    (if fol then (if ci then x ||| SND_CHMAP_PHASE_INVERSE else x) ||| SND_CHMAP_PHASE_INVERSE
      else if ci then x ||| SND_CHMAP_PHASE_INVERSE else x) =
      x ||| (if ci || fol then SND_CHMAP_PHASE_INVERSE else 0#32) := by
  cases ci <;> cases fol <;> simp [BitVec.or_assoc]

theorem token_position_number (token : List Char) (v : Nat) (p : List Char)
    (hnum : token_number token = some (v, p))
    (hmsb : (str_to_chmap token (word token).length).msb = false) :
    token_position token = with_flags v (token.head?.any Char.isDigit)
      (strncasecmpEq p INV 5 || followed_by_INV token) := by
  by_cases hdigit : token.head?.any Char.isDigit = true
  · have hscan : strtoul token = (v, p) := by simpa [token_number, hdigit] using hnum
    simp only [str_to_chmap, hdigit, hscan, if_true] at hmsb
    have hmax : v ≠ ULONG_MAX := by
      intro hmax
      rw [if_pos hmax] at hmsb
      exact absurd hmsb (by decide)
    simp only [token_position, str_to_chmap, hdigit, hscan, if_true, if_neg hmax, phase_twice, with_flags]
  · rw [Bool.not_eq_true] at hdigit
    have hch : strncasecmpEq token ['c', 'h'] 2 = true := by
      by_contra h
      simp [token_number, hdigit, h] at hnum
    have hscan : strtoul (token.drop 2) = (v, p) := by simpa [token_number, hdigit, hch] using hnum
    simp only [str_to_chmap, hdigit, hch, hscan, Bool.false_eq_true, if_false, if_true] at hmsb
    have hmax : v ≠ ULONG_MAX := by
      intro hmax
      rw [if_pos hmax] at hmsb
      exact absurd hmsb (by decide)
    simp only [token_position, str_to_chmap, hdigit, hch, hscan, Bool.false_eq_true, if_false, if_true,
      if_neg hmax, phase_twice, with_flags, BitVec.or_zero]

theorem token_position_name (token : List Char) (hnum : token_number token = none)
    (hmsb : (str_to_chmap token (word token).length).msb = false) :
    ∃ val slen, val ≤ SND_CHMAP_LAST ∧ slen ≤ (word token).length ∧
      token_position token = with_flags val false
        (strncasecmpEq (token.drop slen) INV 5 || followed_by_INV token) := by
  have hdigit : token.head?.any Char.isDigit = false := by
    by_contra h
    rw [Bool.not_eq_false] at h
    simp [token_number, h] at hnum
  have hch : strncasecmpEq token ['c', 'h'] 2 = false := by
    by_contra h
    simp [token_number, hdigit, h] at hnum
  cases hfind : _snd_chmap_names.findIdx? (name_matches token (word token).length) with
  | none =>
    simp only [str_to_chmap, hdigit, hch, hfind, Bool.false_eq_true, if_false] at hmsb
    exact absurd hmsb (by decide)
  | some val =>
    obtain ⟨hlt, hmatch, -⟩ := List.findIdx?_eq_some_iff_getElem.mp hfind
    refine ⟨val, (_snd_chmap_names.getD val []).length, ?_, ?_, ?_⟩
    · exact Nat.le_of_lt_succ hlt
    · simp only [name_matches, Bool.and_eq_true, decide_eq_true_eq] at hmatch
      rw [List.getD_eq_getElem _ _ hlt]
      exact hmatch.1.1
    · simp only [token_position, str_to_chmap, hdigit, hch, hfind, Bool.false_eq_true, if_false,
        phase_twice, with_flags, BitVec.or_zero]

theorem drop_lt_word (token : List Char) (slen : Nat) (h : slen < (word token).length) :
    strncasecmpEq (token.drop slen) INV 5 = false := by
  have hword : word token <+: token := List.takeWhile_prefix _
  have hlt : slen < token.length := Nat.lt_of_lt_of_le h hword.length_le
  have hmem : token[slen] ∈ word token := by
    rw [← hword.getElem h]
    exact List.getElem_mem h
  have halnum : token[slen].isAlphanum = true := List.mem_takeWhile_imp hmem
  by_contra hci
  rw [Bool.not_eq_false, List.drop_eq_getElem_cons hlt] at hci
  have h1 := strncasecmpEq_take _ _ 5 1 (by omega) hci
  simp only [List.take_succ_cons, List.take_zero, List.map_cons, List.map_nil, INV,
    List.cons.injEq] at h1
  have hbracket : token[slen].toLower = '[' := h1.1
  have hnat := toLower_toNat token[slen]
  rw [hbracket, show '['.toNat = 91 from rfl] at hnat
  rw [isAlphanum_iff] at halnum
  split_ifs at hnat <;> omega

theorem positionOk_iff (token : List Char) (pos : BitVec 32) (h : Accepts token pos) :
    PositionOk token pos ↔ NumberFits token := by
  rw [h.position]
  cases hnum : token_number token with
  | some r =>
    obtain ⟨v, p⟩ := r
    rw [token_position_number token v p hnum h.nonneg, with_flags_ok_iff, NumberFits]
    constructor
    · rintro ⟨hlt, hinv, hname⟩ v' p' hv
      obtain ⟨rfl, rfl⟩ : v = v' ∧ p = p' := by simpa [hnum] using hv
      refine ⟨hlt, fun hset => hinv.mp ?_, hname⟩
      rcases hset with hset | hset <;> simp [hset]
    · intro hfits
      obtain ⟨hlt, hset, hname⟩ := hfits v p hnum
      refine ⟨hlt, ⟨fun h => ?_, fun h => by simp [h]⟩, hname⟩
      rcases h with h | h
      · exact hset (Or.inl h)
      · rcases Bool.or_eq_true_iff.mp h with h | h
        · exact hset (Or.inr h)
        · exact h
  | none =>
    have hfits : NumberFits token := fun v p hv => by simp [hnum] at hv
    obtain ⟨val, slen, hval, hslen, hpos⟩ := token_position_name token hnum h.nonneg
    have hval' : val < 37 := Nat.lt_succ_of_le hval
    have h16 : val.testBit 16 = false := Nat.testBit_lt_two_pow (by omega)
    refine iff_of_true ?_ hfits
    rw [hpos, with_flags_ok_iff]
    refine ⟨by omega, ⟨fun hset => ?_, fun hset => by simp [hset]⟩, fun _ => Or.inr (by omega)⟩
    simp only [h16, Bool.false_eq_true, false_or, Bool.or_eq_true] at hset
    rcases hset with hset | hset
    · rcases Nat.lt_or_ge slen (word token).length with hlt | hge
      · rw [drop_lt_word token slen hlt] at hset
        cases hset
      · obtain rfl : slen = (word token).length := by omega
        exact h.exact_INV hset
    · exact hset

theorem all_positionOk_iff (ts : List (List Char)) (m : List (BitVec 32)) (h : List.Forall₂ Accepts ts m) :
    List.Forall₂ PositionOk ts m ↔ ∀ token ∈ ts, NumberFits token := by
  induction h with
  | nil => simp
  | cons hpos _ ih => rw [List.forall₂_cons, List.forall_mem_cons, ih, positionOk_iff _ _ hpos]

theorem forall₂_positionOk_iff (ts : List (List Char)) (m : List (BitVec 32))
    (hlen : ts.length = m.length) :
    List.Forall₂ PositionOk ts m ↔ (∀ pos ∈ m, ValidPosition pos) ∧
      List.Forall₂ (fun token (pos : BitVec 32) =>
        pos &&& SND_CHMAP_PHASE_INVERSE ≠ 0#32 ↔ followed_by_INV token = true) ts m := by
  induction m generalizing ts with
  | nil => simp
  | cons pos m ih =>
    obtain ⟨token, ts, rfl⟩ := List.exists_cons_of_length_eq_add_one hlen
    rw [List.forall₂_cons, List.forall₂_cons, List.forall_mem_cons, ih ts (by simpa using hlen)]
    constructor
    · rintro ⟨⟨hvalid, hphase⟩, hall, hphases⟩
      exact ⟨⟨hvalid, hall⟩, hphase, hphases⟩
    · rintro ⟨⟨hvalid, hall⟩, hphase, hphases⟩
      exact ⟨⟨hvalid, hphase⟩, hall, hphases⟩

/-! ## The printed text -/

theorem position_text_valid (pos : BitVec 32) (hpos : pos.toNat < 2 ^ 18)
    (h : (position_text pos).isSome) : ValidPosition pos := by
  refine ⟨hpos, fun hd => ?_⟩
  rw [position_text, if_neg (by simpa using hd), isSome_getElem?] at h
  exact Nat.le_of_lt_succ h

theorem emit_done (maxlen : Nat) (text : List Char) (len : Nat) (buf : Nat → Char)
    (next : Nat → (Nat → Char) → Option (Int × (Nat → Char))) (ret : Int) (buf' : Nat → Char)
    (hret : 0 ≤ ret) (h : emit maxlen text len buf next = some (ret, buf')) :
    ∃ len1 buf1, next len1 buf1 = some (ret, buf') := by
  simp only [emit] at h
  split_ifs at h with hfull
  · have : -ENOMEM = ret := (Prod.mk.inj (Option.some.inj h)).1
    simp only [ENOMEM] at this
    omega
  · exact ⟨_, _, h⟩

theorem chmap_print_loop_done (maxlen : Nat) (ret : Int) (buf' : Nat → Char) (hret : 0 ≤ ret)
    (l : List (BitVec 32)) (i len : Nat) (buf : Nat → Char)
    (h : chmap_print_loop maxlen i l len buf = some (ret, buf')) :
    ∀ pos ∈ l, (position_text pos).isSome := by
  induction l generalizing i len buf with
  | nil => simp
  | cons pos rest ih =>
    have hposition : ∃ len1 buf1,
        print_position maxlen pos len1 buf1 (chmap_print_loop maxlen (i + 1) rest) = some (ret, buf') := by
      simp only [chmap_print_loop] at h
      split_ifs at h
      · exact emit_done _ _ _ _ _ _ _ hret h
      · exact ⟨_, _, h⟩
    obtain ⟨len1, buf1, h1⟩ := hposition
    obtain ⟨text, htext, h2⟩ := Option.bind_eq_some_iff.mp h1
    obtain ⟨len2, buf2, h3⟩ := emit_done _ _ _ _ _ _ _ hret h2
    have hrest : ∃ len3 buf3, chmap_print_loop maxlen (i + 1) rest len3 buf3 = some (ret, buf') := by
      split_ifs at h3
      · exact emit_done _ _ _ _ _ _ _ hret h3
      · exact ⟨_, _, h3⟩
    obtain ⟨len3, buf3, h4⟩ := hrest
    rw [List.forall_mem_cons]
    exact ⟨by rw [htext]; rfl, ih (i + 1) len3 buf3 h4⟩

/-! ## Stability -/

/-- The map is made of positions, has its inverse phases where the text has them, and prints
to a text that is read back as the same map. -/
structure Stable (str : List Char) (map : SndPcmChmap) : Prop where
  position : ∀ pos ∈ map.pos, pos.toNat < 2 ^ 18
  phase : List.Forall₂ (fun token (pos : BitVec 32) =>
    pos &&& SND_CHMAP_PHASE_INVERSE ≠ 0#32 ↔ followed_by_INV token = true) (tokens 64 str) map.pos
  reprint : ∃ text : List Char, snd_pcm_chmap_parse_string true text = some map ∧
    ∀ maxlen buf, text.length < maxlen → ∃ buf',
      snd_pcm_chmap_print map maxlen buf = some ((text.length : Int), buf') ∧ IsString buf' text

theorem tokens_length (slots : Nat) (str : List Char) : (tokens slots str).length ≤ slots := by
  induction slots generalizing str with
  | zero => simp [tokens]
  | succ slots ih =>
    rw [tokens]
    split_ifs
    · simp
    · simpa using ih (next_token str)

theorem accepted_stable_iff (malloc : Bool) (str : List Char) (map : SndPcmChmap)
    (h : snd_pcm_chmap_parse_string malloc str = some map) :
    Stable str map ↔ ∀ token ∈ tokens 64 str, NumberFits token := by
  obtain ⟨pos, hloop, hmalloc⟩ := Option.bind_eq_some_iff.mp h
  obtain rfl : ⟨pos⟩ = map := by
    split_ifs at hmalloc
    exact Option.some.inj hmalloc
  have haccepts := chmap_parse_loop_tokens 64 str pos hloop
  rw [← all_positionOk_iff _ _ haccepts, forall₂_positionOk_iff _ _ haccepts.length_eq]
  constructor
  · rintro ⟨hposition, hphase, text, -, hprint⟩
    obtain ⟨buf', hret, -⟩ := hprint (text.length + 1) (fun _ => NUL) (by omega)
    have htext := chmap_print_loop_done _ _ _ (by omega) _ _ _ _ hret
    exact ⟨fun p hp => position_text_valid p (hposition p hp) (htext p hp), hphase⟩
  · rintro ⟨hvalid, hphase⟩
    have hne : pos ≠ [] := by
      rintro rfl
      have := haccepts.length_eq
      simp [tokens] at this
    have hlen : pos.length ≤ 64 := haccepts.length_eq ▸ tokens_length 64 str
    refine ⟨fun p hp => (hvalid p hp).1, hphase, chmap_text ⟨pos⟩,
      snd_pcm_chmap_parse_string_text ⟨pos⟩ hvalid hne hlen, fun maxlen buf hfit => ?_⟩
    obtain ⟨ret, buf', hprint, htext, -⟩ := snd_pcm_chmap_print_spec ⟨pos⟩ maxlen buf hvalid hne
    rw [if_pos hfit] at htext
    exact ⟨buf', by rw [hprint, htext.1], htext.2, chmap_text_ne_NUL ⟨pos⟩⟩

theorem accepted_stable_iff_seven :
    Stable ['7'] ⟨[0x20007#32]⟩ ↔ ∀ token ∈ tokens 64 ['7'], NumberFits token :=
  accepted_stable_iff true ['7'] ⟨[0x20007#32]⟩ (by decide)

/-- The phase bit can be typed as a part of a number. -/
theorem phase_without_INV : ¬ ∀ malloc str map, snd_pcm_chmap_parse_string malloc str = some map →
    Stable str map := by
  intro hall
  have hphase := (hall true ['6', '5', '5', '3', '6'] ⟨[0x30000#32]⟩ (by decide)).phase
  exact absurd hphase (by decide)

end Salsa.Chmap
