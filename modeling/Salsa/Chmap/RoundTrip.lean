import Salsa.Chmap.Text

/-!
# The round trip of a channel map

The printed map fits or is refused, and what is printed is read back as the same map.
-/

open CText

namespace Salsa.Chmap

/-- A position number with at most the two flags, which has a name unless the driver
numbers it. -/
def ValidPosition (pos : BitVec 32) : Prop :=
  pos.toNat < 2 ^ 18 ∧
    (pos &&& SND_CHMAP_DRIVER_SPEC = 0#32 →
      (pos &&& SND_CHMAP_POSITION_MASK).toNat ≤ SND_CHMAP_LAST)

instance (pos : BitVec 32) : Decidable (ValidPosition pos) :=
  inferInstanceAs (Decidable (_ ∧ _))

def channel_text (pos : BitVec 32) : List Char :=
  (position_text pos).getD [] ++ if pos &&& SND_CHMAP_PHASE_INVERSE ≠ 0#32 then INV else []

def more_text (rest : List (BitVec 32)) : List Char := rest.flatMap fun pos => ' ' :: channel_text pos

/-- The full rendering of a map. -/
def chmap_text (map : SndPcmChmap) : List Char :=
  match map.pos with
  | [] => []
  | pos :: rest => channel_text pos ++ more_text rest

/-! ## Printing -/

/-- What a print into `buf` leaves when the full text is `text`. -/
def Prints (maxlen : Nat) (buf : Nat → Char) (text : List Char) (ret : Int) (buf' : Nat → Char) : Prop :=
  (if text.length < maxlen then ret = text.length ∧ HoldsString buf' text else ret = -ENOMEM) ∧
    ∀ i, maxlen ≤ i → buf' i = buf i

def PrintOk (maxlen : Nat) (buf : Nat → Char) (text : List Char)
    (result : Option (Int × (Nat → Char))) : Prop :=
  ∃ ret buf', result = some (ret, buf') ∧ Prints maxlen buf text ret buf'

theorem emit_ok (maxlen : Nat) (buf0 buf : Nat → Char) (done text more : List Char)
    (next : Nat → (Nat → Char) → Option (Int × (Nat → Char))) (hdone : Holds buf done)
    (hle : done.length ≤ maxlen) (hframe : ∀ i, maxlen ≤ i → buf i = buf0 i)
    (hnext : ∀ buf', HoldsString buf' (done ++ text) → (done ++ text).length < maxlen →
      (∀ i, maxlen ≤ i → buf' i = buf0 i) →
      PrintOk maxlen buf0 (done ++ text ++ more) (next (done ++ text).length buf')) :
    PrintOk maxlen buf0 (done ++ text ++ more) (emit maxlen text done.length buf next) := by
  have hframe' : ∀ i, maxlen ≤ i →
      (snprintf buf done.length (maxlen - done.length) text).2 i = buf0 i := fun i hi => by
    rw [snprintf_frame _ _ _ _ _ (by omega), hframe i hi]
  by_cases hfit : done.length + text.length < maxlen
  · have hlen : done.length + text.length = (done ++ text).length := by simp
    have hstring := snprintf_fits buf done text (maxlen - done.length) hdone (by omega)
    have hemit : emit maxlen text done.length buf next =
        next (done ++ text).length (snprintf buf done.length (maxlen - done.length) text).2 := by
      rw [← hlen]
      simp [emit, snprintf, Nat.not_le.mpr hfit]
    rw [hemit]
    exact hnext _ hstring (hlen ▸ hfit) hframe'
  · refine ⟨-ENOMEM, _, ?_, ?_, hframe'⟩
    · simp [emit, snprintf, Nat.not_lt.mp hfit]
    · rw [if_neg]
      simp
      omega

theorem position_text_isSome (pos : BitVec 32) (h : ValidPosition pos) :
    ∃ text, position_text pos = some text := by
  unfold position_text
  by_cases hd : pos &&& SND_CHMAP_DRIVER_SPEC = 0#32
  · have := h.2 hd
    rw [if_neg (by simpa using hd)]
    exact ⟨_, List.getElem?_eq_getElem (by simp [_snd_chmap_names, SND_CHMAP_LAST] at this ⊢; omega)⟩
  · exact ⟨_, if_pos hd⟩

theorem print_position_ok (maxlen : Nat) (buf0 buf : Nat → Char) (done more : List Char)
    (pos : BitVec 32) (next : Nat → (Nat → Char) → Option (Int × (Nat → Char)))
    (hvalid : ValidPosition pos) (hdone : Holds buf done)
    (hle : done.length ≤ maxlen) (hframe : ∀ i, maxlen ≤ i → buf i = buf0 i)
    (hnext : ∀ buf', HoldsString buf' (done ++ channel_text pos) →
      (done ++ channel_text pos).length < maxlen → (∀ i, maxlen ≤ i → buf' i = buf0 i) →
      PrintOk maxlen buf0 (done ++ channel_text pos ++ more)
        (next (done ++ channel_text pos).length buf')) :
    PrintOk maxlen buf0 (done ++ channel_text pos ++ more)
      (print_position maxlen pos done.length buf next) := by
  obtain ⟨text, htext⟩ := position_text_isSome pos hvalid
  simp only [print_position, htext, Option.bind_some]
  by_cases hinv : pos &&& SND_CHMAP_PHASE_INVERSE ≠ 0#32
  · have hchan : channel_text pos = text ++ INV := by simp only [channel_text, htext, Option.getD_some, if_pos hinv]
    simp only [hchan, ← List.append_assoc, if_pos hinv] at hnext ⊢
    rw [List.append_assoc (done ++ text) INV more]
    refine emit_ok maxlen buf0 buf done text _ _ hdone hle hframe fun buf1 h1 hlt1 hframe1 => ?_
    rw [← List.append_assoc]
    exact emit_ok maxlen buf0 buf1 _ INV more _ h1.1 hlt1.le hframe1 hnext
  · have hchan : channel_text pos = text := by
      simp only [channel_text, htext, Option.getD_some, if_neg hinv, List.append_nil]
    simp only [hchan, if_neg hinv] at hnext ⊢
    exact emit_ok maxlen buf0 buf done text more _ hdone hle hframe hnext

theorem chmap_print_loop_ok (maxlen : Nat) (buf0 : Nat → Char) (l : List (BitVec 32))
    (hvalid : ∀ pos ∈ l, ValidPosition pos) (i : Nat) (done : List Char) (buf : Nat → Char)
    (hi : 0 < i) (hdone : HoldsString buf done) (hlt : done.length < maxlen)
    (hframe : ∀ i, maxlen ≤ i → buf i = buf0 i) :
    PrintOk maxlen buf0 (done ++ more_text l) (chmap_print_loop maxlen i l done.length buf) := by
  induction l generalizing i done buf with
  | nil =>
    refine ⟨_, _, rfl, ?_, hframe⟩
    simpa [more_text, hlt] using hdone
  | cons pos rest ih =>
    have hmore : done ++ more_text (pos :: rest) =
        done ++ [' '] ++ (channel_text pos ++ more_text rest) := by simp [more_text]
    rw [hmore, chmap_print_loop, if_pos hi]
    refine emit_ok maxlen buf0 buf done [' '] _ _ hdone.1 hlt.le hframe fun buf1 h1 hlt1 hframe1 => ?_
    rw [← List.append_assoc]
    refine print_position_ok maxlen buf0 buf1 _ _ pos _ (hvalid pos List.mem_cons_self) h1.1 hlt1.le
      hframe1 fun buf2 h2 hlt2 hframe2 => ?_
    exact ih (fun p hp => hvalid p (List.mem_cons_of_mem _ hp)) (i + 1) _ buf2 (by omega) h2 hlt2 hframe2

theorem snd_pcm_chmap_print_spec (map : SndPcmChmap) (maxlen : Nat) (buf : Nat → Char)
    (hvalid : ∀ pos ∈ map.pos, ValidPosition pos) (hpos : map.pos ≠ []) :
    PrintOk maxlen buf (chmap_text map) (snd_pcm_chmap_print map maxlen buf) := by
  obtain ⟨pos, rest, hcons⟩ := List.exists_cons_of_ne_nil hpos
  rw [hcons] at hvalid
  simp only [chmap_text, snd_pcm_chmap_print, hcons, chmap_print_loop]
  refine print_position_ok maxlen buf buf [] (more_text rest) pos _ (hvalid pos List.mem_cons_self)
    (holds_nil buf) (Nat.zero_le _) (fun _ _ => rfl) fun buf1 h1 hlt1 hframe1 => ?_
  exact chmap_print_loop_ok maxlen buf rest (fun p hp => hvalid p (List.mem_cons_of_mem _ hp)) 1 _ buf1
    (by omega) h1 hlt1 hframe1

/-! ## Parsing -/

theorem name_matches_append (str rest name : List Char) (hrest : NoAlnum rest)  :
    name_matches (str ++ rest) str.length name = name_matches str str.length name := by
  unfold name_matches
  by_cases hle : name.length ≤ str.length
  · have hcmp : strncasecmpEq (str ++ rest) name name.length = strncasecmpEq str name name.length := by
      simp only [strncasecmpEq, List.take_append_of_le_length hle]
    rw [hcmp, List.drop_append_of_le_length hle]
    congr 2
    rcases Nat.lt_or_ge name.length str.length with hlt | hge
    · rw [List.head?_append_of_ne_nil _ (by simpa using hlt)]
    · rw [List.drop_of_length_le hge, List.nil_append]
      cases rest with
      | nil => rfl
      | cons c rest =>
        have := hrest c rfl
        simp only [Char.isAlphanum, Bool.or_eq_false_iff] at this
        simp [this.1]
  · simp [hle]

theorem findIdx_name : ∀ val < 37, _snd_chmap_names.findIdx?
    (name_matches (_snd_chmap_names.getD val []) (_snd_chmap_names.getD val []).length) = some val := by
  decide +kernel

theorem name_shape : ∀ name ∈ _snd_chmap_names,
    2 ≤ name.length ∧ name.all Char.isAlpha = true ∧ strncasecmpEq name ['c', 'h'] 2 = false := by
  decide

theorem str_to_chmap_name (val : Nat) (rest : List Char) (hval : val < 37) (hrest : NoAlnum rest) :
    str_to_chmap (_snd_chmap_names.getD val [] ++ rest) (_snd_chmap_names.getD val []).length =
      if strncasecmpEq rest INV 5 then BitVec.ofNat 32 val ||| SND_CHMAP_PHASE_INVERSE
      else BitVec.ofNat 32 val := by
  have hfind := findIdx_name val hval
  obtain ⟨name, hname⟩ : ∃ name, _snd_chmap_names.getD val [] = name := ⟨_, rfl⟩
  have hmem : name ∈ _snd_chmap_names := by
    rw [← hname, List.getD_eq_getElem _ _ (by simpa [_snd_chmap_names] using hval)]
    exact List.getElem_mem _
  obtain ⟨hlen, hall, hch⟩ := name_shape name hmem
  have halpha := List.all_eq_true.mp hall
  obtain ⟨c, cs, hcons⟩ := List.exists_cons_of_ne_nil (List.ne_nil_of_length_pos (by omega : 0 < name.length))
  have hdigit : (name ++ rest).head?.any Char.isDigit = false := by
    simp [hcons, not_isDigit_of_isAlpha c (halpha c (by simp [hcons]))]
  have hch' : strncasecmpEq (name ++ rest) ['c', 'h'] 2 = false := by
    rw [← hch, strncasecmpEq, strncasecmpEq, List.take_append_of_le_length hlen]
  rw [hname] at hfind ⊢
  have hfind' : _snd_chmap_names.findIdx? (name_matches (name ++ rest) name.length) = some val := by
    rw [← hfind]
    exact congrArg (_snd_chmap_names.findIdx? ·) (funext (name_matches_append name rest · hrest))
  simp only [str_to_chmap, hdigit, hch', hfind', hname, List.drop_left, Bool.false_eq_true, if_false]

theorem str_to_chmap_decimal (n : Nat) (rest : List Char) (hn : n < ULONG_MAX) (hrest : NoAlnum rest)
    (len : Nat) :
    str_to_chmap (decimal n ++ rest) len =
      if strncasecmpEq rest INV 5 then
        BitVec.ofNat 32 n ||| SND_CHMAP_DRIVER_SPEC ||| SND_CHMAP_PHASE_INVERSE
      else BitVec.ofNat 32 n ||| SND_CHMAP_DRIVER_SPEC := by
  obtain ⟨c, cs, hcons⟩ := List.exists_cons_of_ne_nil (decimal_ne_nil n)
  have hdigit : (decimal n ++ rest).head?.any Char.isDigit = true := by
    have := decimal_isDigit n c (by simp [hcons])
    simp [hcons, this]
  have hne : n ≠ ULONG_MAX := by omega
  simp only [str_to_chmap, hdigit, strtoul_decimal n rest (by omega) hrest, if_true, if_neg hne]

/-! ### The bits of a position -/

theorem position_mask_bit : ∀ i < 32, SND_CHMAP_POSITION_MASK.getLsbD i = decide (i < 16) := by decide

theorem phase_inverse_bit : ∀ i < 32, SND_CHMAP_PHASE_INVERSE.getLsbD i = decide (i = 16) := by decide

theorem driver_spec_bit : ∀ i < 32, SND_CHMAP_DRIVER_SPEC.getLsbD i = decide (i = 17) := by decide

theorem phase_inverse_clear (pos : BitVec 32) :
    pos &&& SND_CHMAP_PHASE_INVERSE = 0#32 ↔ pos.getLsbD 16 = false := by
  have := BitVec.and_twoPow pos 16
  rw [show BitVec.twoPow 32 16 = SND_CHMAP_PHASE_INVERSE from rfl] at this
  rw [this]
  cases pos.getLsbD 16 <;> decide

theorem driver_spec_clear (pos : BitVec 32) :
    pos &&& SND_CHMAP_DRIVER_SPEC = 0#32 ↔ pos.getLsbD 17 = false := by
  have := BitVec.and_twoPow pos 17
  rw [show BitVec.twoPow 32 17 = SND_CHMAP_DRIVER_SPEC from rfl] at this
  rw [this]
  cases pos.getLsbD 17 <;> decide

theorem getLsbD_of_lt_pow (pos : BitVec 32) (k i : Nat) (h : pos.toNat < 2 ^ k) (hi : k ≤ i) :
    pos.getLsbD i = false :=
  Nat.testBit_lt_two_pow (Nat.lt_of_lt_of_le h (Nat.pow_le_pow_right (by omega) hi))

/-- A position number and its two flags are all of a position. -/
theorem position_eq (pos : BitVec 32) (hpos : pos.toNat < 2 ^ 18) :
    pos = (pos &&& SND_CHMAP_POSITION_MASK) ||| (pos &&& SND_CHMAP_DRIVER_SPEC) |||
      (pos &&& SND_CHMAP_PHASE_INVERSE) := by
  apply BitVec.eq_of_getLsbD_eq
  intro i hi
  simp only [BitVec.getLsbD_or, BitVec.getLsbD_and, position_mask_bit i hi, phase_inverse_bit i hi,
    driver_spec_bit i hi]
  rcases Nat.lt_or_ge i 18 with hlt | hge
  · have : i < 16 ∨ i = 17 ∨ i = 16 := by omega
    rcases this with h | h | h <;> cases pos.getLsbD i <;> simp [h]
  · simp [getLsbD_of_lt_pow pos 18 i hpos hge]

theorem driver_spec_set (pos : BitVec 32) (h : pos &&& SND_CHMAP_DRIVER_SPEC ≠ 0#32) :
    pos &&& SND_CHMAP_DRIVER_SPEC = SND_CHMAP_DRIVER_SPEC := by
  rw [Ne, driver_spec_clear, Bool.not_eq_false] at h
  rw [show SND_CHMAP_DRIVER_SPEC = BitVec.twoPow 32 17 from rfl, BitVec.and_twoPow, if_pos h]

theorem phase_inverse_set (pos : BitVec 32) (h : pos &&& SND_CHMAP_PHASE_INVERSE ≠ 0#32) :
    pos &&& SND_CHMAP_PHASE_INVERSE = SND_CHMAP_PHASE_INVERSE := by
  rw [Ne, phase_inverse_clear, Bool.not_eq_false] at h
  rw [show SND_CHMAP_PHASE_INVERSE = BitVec.twoPow 32 16 from rfl, BitVec.and_twoPow, if_pos h]

theorem or_phase_inverse (pos : BitVec 32) (h : pos &&& SND_CHMAP_PHASE_INVERSE ≠ 0#32) :
    pos ||| SND_CHMAP_PHASE_INVERSE = pos := by
  rw [Ne, phase_inverse_clear, Bool.not_eq_false] at h
  apply BitVec.eq_of_getLsbD_eq
  intro i hi
  rw [BitVec.getLsbD_or, phase_inverse_bit i hi]
  by_cases h16 : i = 16 <;> simp [h16, h]

theorem msb_of_lt (pos : BitVec 32) (hpos : pos.toNat < 2 ^ 18) : pos.msb = false := by
  rw [BitVec.msb_eq_false_iff_two_mul_lt]
  omega

/-! ### One channel -/

theorem str_to_chmap_position (pos : BitVec 32) (text rest : List Char) (hvalid : ValidPosition pos)
    (htext : position_text pos = some text) (hrest : NoAlnum rest) :
    str_to_chmap (text ++ rest) text.length =
      (pos &&& SND_CHMAP_POSITION_MASK) ||| (pos &&& SND_CHMAP_DRIVER_SPEC) |||
        (if strncasecmpEq rest INV 5 then SND_CHMAP_PHASE_INVERSE else 0#32) := by
  unfold position_text at htext
  by_cases hd : pos &&& SND_CHMAP_DRIVER_SPEC = 0#32
  · have hle := hvalid.2 hd
    rw [if_neg (by simpa using hd)] at htext
    obtain ⟨n, hn⟩ : ∃ n, (pos &&& SND_CHMAP_POSITION_MASK).toNat = n := ⟨_, rfl⟩
    have hpos : pos &&& SND_CHMAP_POSITION_MASK = BitVec.ofNat 32 n := by
      rw [← hn, BitVec.ofNat_toNat, BitVec.setWidth_eq]
    have hget : _snd_chmap_names.getD n [] = text := by
      rw [List.getD_eq_getElem?_getD, ← hn, htext, Option.getD_some]
    have hname := str_to_chmap_name n rest (Nat.lt_succ_of_le (hn ▸ hle)) hrest
    rw [hget] at hname
    rw [hname, hd, hpos]
    split_ifs <;> simp
  · rw [if_pos hd, Option.some.injEq] at htext
    have hlt : (pos &&& SND_CHMAP_POSITION_MASK).toNat < ULONG_MAX := by
      have := (pos &&& SND_CHMAP_POSITION_MASK).isLt
      unfold ULONG_MAX
      omega
    rw [← htext, str_to_chmap_decimal _ rest hlt hrest, driver_spec_set pos hd, BitVec.ofNat_toNat,
      BitVec.setWidth_eq]
    split_ifs <;> simp

theorem position_text_isAlphanum (pos : BitVec 32) (text : List Char)
    (htext : position_text pos = some text) :
    text ≠ [] ∧ ∀ c ∈ text, c.isAlphanum = true := by
  unfold position_text at htext
  split at htext
  · rw [Option.some.injEq] at htext
    subst htext
    exact ⟨decimal_ne_nil _, fun c hc => by simp [Char.isAlphanum, decimal_isDigit _ c hc]⟩
  · obtain ⟨hlen, hall, -⟩ := name_shape text (List.mem_of_getElem? htext)
    have halpha := List.all_eq_true.mp hall
    exact ⟨List.ne_nil_of_length_pos (by omega), fun c hc => by simp [Char.isAlphanum, halpha c hc]⟩

theorem takeWhile_word (text rest : List Char) (htext : ∀ c ∈ text, c.isAlphanum = true)
    (hrest : NoAlnum rest) : (text ++ rest).takeWhile Char.isAlphanum = text := by
  rw [List.takeWhile_append_of_pos htext]
  cases rest with
  | nil => simp
  | cons c rest => simp [hrest c rfl]

theorem more_text_noAlnum (rest : List (BitVec 32)) : NoAlnum (more_text rest) := by
  cases rest with
  | nil => intro c hc; cases hc
  | cons pos rest => intro c hc; cases hc; rfl

theorem more_text_not_INV (rest : List (BitVec 32)) :
    strncasecmpEq (more_text rest) INV 5 = false ∧ (more_text rest).head? ≠ some '[' := by
  cases rest with
  | nil => decide
  | cons pos rest => constructor <;> simp [more_text, strncasecmpEq, INV]

theorem chmap_parse_loop_channel (pos : BitVec 32) (rest : List (BitVec 32)) (slots : Nat)
    (hvalid : ValidPosition pos) :
    chmap_parse_loop (slots + 1) (channel_text pos ++ more_text rest) =
      (let str := (more_text rest).dropWhile fun c => !c.isAlphanum
       if str.isEmpty then some [pos] else (chmap_parse_loop slots str).map (pos :: ·)) := by
  obtain ⟨text, htext⟩ := position_text_isSome pos hvalid
  obtain ⟨hne, halnum⟩ := position_text_isAlphanum pos text htext
  obtain ⟨hci, hhead⟩ := more_text_not_INV rest
  have hlen : text.length ≠ 0 := by simpa using hne
  by_cases hinv : pos &&& SND_CHMAP_PHASE_INVERSE = 0#32
  · have hchan : channel_text pos = text := by simp [channel_text, htext, hinv]
    have hval : str_to_chmap (text ++ more_text rest) text.length = pos := by
      rw [str_to_chmap_position pos text _ hvalid htext (more_text_noAlnum rest), hci]
      conv_rhs => rw [position_eq pos hvalid.1, hinv]
      rfl
    simp [hchan, chmap_parse_loop, takeWhile_word text _ halnum (more_text_noAlnum rest), hlen, hval,
      msb_of_lt pos hvalid.1, hhead]
  · have hchan : channel_text pos = text ++ INV := by simp [channel_text, htext, hinv]
    have hnoAlnum : NoAlnum (INV ++ more_text rest) := by intro c hc; cases hc; rfl
    have hval : str_to_chmap (text ++ (INV ++ more_text rest)) text.length = pos := by
      rw [str_to_chmap_position pos text _ hvalid htext hnoAlnum]
      conv_rhs => rw [position_eq pos hvalid.1, phase_inverse_set pos hinv]
      rw [if_pos (by simp [strncasecmpEq, INV])]
    have hcmp : strncmpEq (INV ++ more_text rest) INV 5 = true := by simp [strncmpEq, INV]
    have hopen : (INV ++ more_text rest).head? = some '[' := rfl
    have hdrop : (INV ++ more_text rest).drop 5 = more_text rest := rfl
    simp [hchan, chmap_parse_loop, List.append_assoc, takeWhile_word text _ halnum hnoAlnum, hlen, hval,
      msb_of_lt pos hvalid.1, hcmp, hopen, hdrop, or_phase_inverse pos hinv]

theorem chmap_parse_loop_text (pos : BitVec 32) (rest : List (BitVec 32)) (slots : Nat)
    (hvalid : ∀ p ∈ pos :: rest, ValidPosition p) (hslots : (pos :: rest).length ≤ slots) :
    chmap_parse_loop slots (channel_text pos ++ more_text rest) = some (pos :: rest) := by
  induction rest generalizing pos slots with
  | nil =>
    obtain ⟨slots, rfl⟩ : ∃ k, slots = k + 1 := ⟨slots - 1, by simp at hslots; omega⟩
    rw [chmap_parse_loop_channel pos [] slots (hvalid pos List.mem_cons_self)]
    rfl
  | cons next rest ih =>
    obtain ⟨slots, rfl⟩ : ∃ k, slots = k + 1 := ⟨slots - 1, by simp at hslots; omega⟩
    rw [chmap_parse_loop_channel pos (next :: rest) slots (hvalid pos List.mem_cons_self)]
    have hhead : ∃ c cs, channel_text next = c :: cs ∧ c.isAlphanum = true := by
      obtain ⟨text, htext⟩ := position_text_isSome next (hvalid next (by simp))
      obtain ⟨hne, halnum⟩ := position_text_isAlphanum next text htext
      obtain ⟨c, cs, rfl⟩ := List.exists_cons_of_ne_nil hne
      exact ⟨c, _, by rw [channel_text, htext]; rfl, halnum c List.mem_cons_self⟩
    obtain ⟨c, cs, hcons, hc⟩ := hhead
    have htail : (more_text (next :: rest)).dropWhile (fun c => !c.isAlphanum) =
        channel_text next ++ more_text rest := by
      simp [more_text, hcons, hc]
    have hrest := ih next slots (fun p hp => hvalid p (List.mem_cons_of_mem _ hp)) (by simpa using hslots)
    have hne : (channel_text next ++ more_text rest).isEmpty = false := by simp [hcons]
    simp only [htail, hne, hrest, Bool.false_eq_true, if_false, Option.map_some]

theorem snd_pcm_chmap_parse_string_text (map : SndPcmChmap) (hvalid : ∀ pos ∈ map.pos, ValidPosition pos)
    (hpos : map.pos ≠ []) (hlen : map.pos.length ≤ 64) :
    snd_pcm_chmap_parse_string true (chmap_text map) = some map := by
  obtain ⟨pos, rest, hcons⟩ := List.exists_cons_of_ne_nil hpos
  rw [hcons] at hvalid hlen
  simp only [snd_pcm_chmap_parse_string, chmap_text, hcons,
    chmap_parse_loop_text pos rest 64 hvalid hlen, Option.bind_some, if_true]
  rw [← hcons]

theorem channel_text_ne_NUL (pos : BitVec 32) : NUL ∉ channel_text pos := by
  intro h
  rcases List.mem_append.mp h with h | h
  · cases htext : position_text pos with
    | none => simp [htext] at h
    | some text =>
      rw [htext, Option.getD_some] at h
      exact absurd ((position_text_isAlphanum pos text htext).2 NUL h) (by decide)
  · split_ifs at h
    · exact absurd h (by decide)
    · cases h

theorem chmap_text_ne_NUL (map : SndPcmChmap) : NUL ∉ chmap_text map := by
  unfold chmap_text
  cases map.pos with
  | nil => simp
  | cons pos rest =>
    intro h
    rcases List.mem_append.mp h with h | h
    · exact channel_text_ne_NUL pos h
    · obtain ⟨p, -, hp⟩ := List.mem_flatMap.mp h
      rcases List.mem_cons.mp hp with hp | hp
      · exact absurd hp (by decide)
      · exact channel_text_ne_NUL p hp

/-! ## The round trip -/

/-- A map with a name or a driver's number for each channel, as far as the parser has slots. -/
def ValidMap (map : SndPcmChmap) : Prop :=
  1 ≤ map.pos.length ∧ map.pos.length ≤ 64 ∧ ∀ pos ∈ map.pos, ValidPosition pos

instance (map : SndPcmChmap) : Decidable (ValidMap map) :=
  haveI : Decidable (∀ pos ∈ map.pos, ValidPosition pos) := List.decidableBAll _ _
  inferInstanceAs (Decidable (_ ∧ _ ∧ _))

theorem print_then_parse (map : SndPcmChmap) (maxlen : Nat) (buf : Nat → Char) (hvalid : ValidMap map) :
    ∃ ret buf', snd_pcm_chmap_print map maxlen buf = some (ret, buf') ∧
      (∀ i, maxlen ≤ i → buf' i = buf i) ∧
      (if (chmap_text map).length < maxlen then
        ret = (chmap_text map).length ∧ IsString buf' (chmap_text map) ∧
          ∀ str, IsString buf' str → snd_pcm_chmap_parse_string true str = some map
      else ret = -ENOMEM) := by
  obtain ⟨hpos, hlen, hall⟩ := hvalid
  have hne : map.pos ≠ [] := List.ne_nil_of_length_pos hpos
  obtain ⟨ret, buf', hprint, htext, hframe⟩ := snd_pcm_chmap_print_spec map maxlen buf hall hne
  refine ⟨ret, buf', hprint, hframe, ?_⟩
  split_ifs at htext ⊢ with hfit
  · have hstring : IsString buf' (chmap_text map) := ⟨htext.2, chmap_text_ne_NUL map⟩
    refine ⟨htext.1, hstring, fun str hstr => ?_⟩
    rw [isString_unique buf' str (chmap_text map) hstr hstring]
    exact snd_pcm_chmap_parse_string_text map hall hne hlen
  · exact htext

theorem print_then_parse_stereo :
    ∃ ret buf', snd_pcm_chmap_print ⟨[0x3#32, 0x30007#32]⟩ 16 (fun _ => NUL) = some (ret, buf') ∧
      (∀ i, 16 ≤ i → buf' i = NUL) ∧
      (if (chmap_text ⟨[0x3#32, 0x30007#32]⟩).length < 16 then
        ret = (chmap_text ⟨[0x3#32, 0x30007#32]⟩).length ∧
          IsString buf' (chmap_text ⟨[0x3#32, 0x30007#32]⟩) ∧
          ∀ str, IsString buf' str →
            snd_pcm_chmap_parse_string true str = some ⟨[0x3#32, 0x30007#32]⟩
      else ret = -ENOMEM) :=
  print_then_parse ⟨[0x3#32, 0x30007#32]⟩ 16 (fun _ => NUL) (by decide)

end Salsa.Chmap
