import Salsa.Device.Cards
import Salsa.Lib.Live

/-!
# Cards by number and by id

A name has the number or the id of a card, and then a device and a subdevice. The number ends at the comma; for an id
the rest of the name is compared as a whole.
-/

namespace Salsa.Device

open Prog Descriptors CText

/-- Letters and digits, of which a letter is the first. -/
def IsId (id : List Char) : Prop := id.head?.any Char.isAlpha = true ∧ ∀ c ∈ id, c.isAlphanum = true

/-- The system has these cards, and no others. -/
structure Installed (o : Lookup) (ids : Nat → Option (List Char)) : Prop where
  present : ∀ card < SALSA_MAX_CARDS, ∀ id, ids card = some id →
    o.access card = none ∧ (o.card card).control.fails = none ∧ ∃ info, (o.card card).info = .ok info ∧ info.id = id
  absent : ∀ card < SALSA_MAX_CARDS, ids card = none → (o.card card).control.fails ≠ none
  distinct : ∀ card < SALSA_MAX_CARDS, ∀ card' < SALSA_MAX_CARDS, ∀ id,
    ids card = some id → ids card' = some id → card = card'
  valid : ∀ card < SALSA_MAX_CARDS, ∀ id, ids card = some id → IsId id

/-- A reference to a card. -/
inductive CardRef
  | number
  | id
deriving DecidableEq

def CardRef.text (card : Nat) (id : List Char) : CardRef → List Char
  | .number => decimal card
  | .id => id

/-- What follows it. -/
inductive DevicePart
  | none
  | device (dev : Nat)
  | subdevice (dev subdev : Nat)
deriving DecidableEq

def DevicePart.text : DevicePart → List Char
  | .none => []
  | .device dev => ',' :: decimal dev
  | .subdevice dev subdev => ',' :: (decimal dev ++ ',' :: decimal subdev)

/-- The device has a number below 32, and the subdevice one that is an int. -/
def DevicePart.InRange : DevicePart → Prop
  | .none => True
  | .device dev => dev < 32
  | .subdevice dev subdev => dev < 32 ∧ subdev < 2147483648

def DevicePart.target (card : Nat) : DevicePart → DeviceName
  | .none => ⟨card, 0, -1⟩
  | .device dev => ⟨card, dev, -1⟩
  | .subdevice dev subdev => ⟨card, dev, subdev⟩

def prefixes : List (List Char) := ["hw:".toList, "default:".toList, "sysdefault:".toList]

/-! ## The cards -/

theorem load_card_info_wp (o : CardAnswers) (t : Table) : Wp (load_card_info o) t fun r _ =>
    (o.control.fails ≠ none → ∃ err, r = .error err) ∧
      ∀ info, o.control.fails = none → o.info = .ok info → r = .ok info := by
  apply wp_bind
  refine (openFile_wp o.control t).mono fun fd t1 h => ?_
  rcases h with ⟨hneg, hfails, -, -⟩ | ⟨hpos, hworks, hopened, -⟩
  · rw [if_pos hneg]
    apply wp_bind
    exact (keeps_negErrno t1).mono fun err t2 _ =>
      wp_pure _ t2 _ ⟨fun _ => ⟨err, rfl⟩, fun info hworks => absurd hworks hfails⟩
  · rw [if_neg (Int.not_lt.mpr hpos)]
    apply wp_bind
    refine (ioctl_wp o.info t1).mono fun r t2 ⟨hsame, hr, _⟩ => ?_
    have hopened := hopened.same hsame
    cases r with
    | none =>
      apply wp_bind
      refine (closeFile_wp fd.toNat t2 hopened.mem).mono fun _ t3 _ => ?_
      apply wp_bind
      refine (keeps_negErrno t3).mono fun err t4 _ => ?_
      refine wp_pure _ t4 _ ⟨fun hfails => absurd hworks hfails, fun info _ hinfo => ?_⟩
      rw [hinfo] at hr
      cases hr
    | some answer =>
      apply wp_bind
      refine (closeFile_wp fd.toNat t2 hopened.mem).mono fun _ t3 _ => ?_
      refine wp_pure _ t3 _ ⟨fun hfails => absurd hworks hfails, fun info _ hinfo => ?_⟩
      rw [hinfo] at hr
      cases hr
      rfl

section Installed

variable {o : Lookup} {ids : Nat → Option (List Char)} (h : Installed o ids)

include h

/-- The first card with this id. -/
theorem find_card_wp (string : List Char) (cards : List Nat) (hcards : ∀ card ∈ cards, card < SALSA_MAX_CARDS)
    (t : Table) :
    Wp (find_card o string cards) t fun r _ =>
      r = (cards.find? fun card => ids card = some string).elim (-ENODEV) fun card => (card : Int) := by
  induction cards generalizing t with
  | nil => exact wp_pure _ t _ rfl
  | cons card cards ih =>
    have hcard := hcards card List.mem_cons_self
    have hrest := ih fun c hc => hcards c (List.mem_cons_of_mem _ hc)
    apply wp_bind
    refine (load_card_info_wp (o.card card) t).mono fun r t1 ⟨hfails, hworks⟩ => ?_
    cases hid : ids card with
    | none =>
      obtain ⟨err, rfl⟩ := hfails (h.absent card hcard hid)
      rw [List.find?_cons_of_neg (by simp [hid])]
      exact hrest t1
    | some id =>
      obtain ⟨-, hcontrol, info, hinfo, rfl⟩ := h.present card hcard id hid
      obtain rfl := hworks info hcontrol hinfo
      dsimp only
      by_cases hstring : info.id = string
      · rw [if_pos hstring, List.find?_cons_of_pos (by simp [hid, hstring])]
        exact wp_pure _ t1 _ rfl
      · rw [if_neg hstring, List.find?_cons_of_neg (by simp [hid, hstring])]
        exact hrest t1

theorem find_id (card : Nat) (hcard : card < SALSA_MAX_CARDS) (id : List Char) (hid : ids card = some id) :
    (List.range SALSA_MAX_CARDS).find? (fun c => ids c = some id) = some card := by
  rw [List.find?_range_eq_some]
  refine ⟨decide_eq_true hid, List.mem_range.mpr hcard, fun j hj => ?_⟩
  rw [Bool.not_eq_true', decide_eq_false_iff_not]
  intro hother
  exact absurd (h.distinct j (Nat.lt_trans hj hcard) card hcard id hother hid) (Nat.ne_of_lt hj)

theorem find_other (id : List Char) (hcomma : ',' ∈ id) :
    (List.range SALSA_MAX_CARDS).find? (fun c => ids c = some id) = none := by
  rw [List.find?_eq_none]
  intro c hc hsome
  rw [decide_eq_true_eq] at hsome
  exact absurd ((h.valid c (List.mem_range.mp hc) id hsome).2 ',' hcomma) (by decide)

end Installed

/-! ## The text -/

theorem scanAnyInt_id (id rest : List Char) (h : IsId id) : scanAnyInt (id ++ rest) = none := by
  obtain ⟨hhead, -⟩ := h
  cases id with
  | nil => cases hhead
  | cons c cs =>
    have hc : 65 ≤ c.toNat := by
      rcases (isAlpha_iff c).mp hhead with hupper | hlower
      · exact hupper.1
      · exact Nat.le_trans (by decide) hlower.1
    have hdigit : c.isDigit = false := not_isDigit_of_isAlpha c hhead
    have hspace : isspace c = false := by
      simp [isspace]
      omega
    have hsign : scanSign (c :: (cs ++ rest)) = (false, c :: (cs ++ rest)) :=
      scanSign_of_ne c _ (by rintro rfl; exact absurd hc (by decide)) (by rintro rfl; exact absurd hc (by decide))
    have hbase : scanBase (c :: (cs ++ rest)) = (10, c :: (cs ++ rest)) :=
      scanBase_of_head_ne_zero c _ (by rintro rfl; exact absurd hc (by decide))
    unfold scanAnyInt
    rw [List.cons_append, List.dropWhile_cons_of_neg (by simp [hspace])]
    simp only [hsign, hbase, List.head?_cons, Option.bind_some, digitVal_not_digit 10 c (Nat.le_refl _) hdigit]
    rfl

theorem commas_noAlnum (part : DevicePart) : NoAlnum part.text := by
  cases part with
  | none =>
    intro c hc
    cases hc
  | device dev =>
    intro c hc
    cases hc
    rfl
  | subdevice dev subdev =>
    intro c hc
    cases hc
    rfl

theorem dropWhile_part (text : List Char) (part : DevicePart) (h : ',' ∉ text) :
    (text ++ part.text).dropWhile (· ≠ ',') = part.text := by
  rw [List.dropWhile_append_of_pos (ne_of_not_mem ',' text h)]
  cases part <;> rfl

theorem toInt_eq (n : Nat) (hn : n < 2147483648) : (BitVec.ofNat 32 n).toInt = n := by
  rw [BitVec.toInt_eq_toNat_of_lt, BitVec.toNat_ofNat, Nat.mod_eq_of_lt (by omega)]
  rw [BitVec.toNat_ofNat]
  omega

theorem scanLiteral_comma (text : List Char) : scanLiteral [','] (',' :: text) = some text :=
  scanLiteral_append [','] text

/-- The device and the subdevice are those of the text, from its first comma on. -/
theorem scan_device_text (card : Nat) (part : DevicePart) (h : part.InRange) :
    scan_device ⟨card, 0, -1⟩ part.text = part.target card := by
  unfold scan_device
  cases part with
  | none => rfl
  | device dev =>
    have hdev : dev < 32 := h
    have hscan := scanIntRest_decimal dev (by unfold LONG_LIMIT; omega) [] (by simp [NoDigit])
    rw [List.append_nil] at hscan
    simp only [DevicePart.text, scanLiteral_comma, Option.bind_some, hscan, toInt_eq dev (by omega)]
    rfl
  | subdevice dev subdev =>
    obtain ⟨hdev, hsubdev⟩ : dev < 32 ∧ subdev < 2147483648 := h
    have hscan := scanIntRest_decimal dev (by unfold LONG_LIMIT; omega) (',' :: decimal subdev) (by simp [NoDigit])
    have hscan' := scanIntRest_decimal subdev (by unfold LONG_LIMIT; omega) [] (by simp [NoDigit])
    rw [List.append_nil] at hscan'
    simp only [DevicePart.text, scanLiteral_comma, Option.bind_some, hscan, hscan', toInt_eq dev (by omega),
      toInt_eq subdev hsubdev]
    rfl

theorem target_dev (card : Nat) (part : DevicePart) (h : part.InRange) :
    ¬ ((part.target card).dev < 0 ∨ (part.target card).dev ≥ SALSA_MAX_DEVICES) := by
  unfold SALSA_MAX_DEVICES
  cases part with
  | none =>
    dsimp only [DevicePart.target]
    omega
  | device dev =>
    have hdev : dev < 32 := h
    dsimp only [DevicePart.target]
    omega
  | subdevice dev subdev =>
    have hdev : dev < 32 := h.1
    dsimp only [DevicePart.target]
    omega

theorem strip_prefix_append (pre : List Char) (hpre : pre ∈ prefixes) (name : List Char) :
    strip_prefix (pre ++ name) = some name := by
  unfold strip_prefix
  rcases List.mem_cons.mp hpre with rfl | hpre
  · rw [scanLiteral_append]
    rfl
  rcases List.mem_cons.mp hpre with rfl | hpre
  · rw [scanLiteral_mismatch "hw:".toList "default:".toList name (by decide), scanLiteral_append]
    rfl
  obtain rfl := List.mem_singleton.mp hpre
  rw [scanLiteral_mismatch "hw:".toList "sysdefault:".toList name (by decide),
    scanLiteral_mismatch "default:".toList "sysdefault:".toList name (by decide), scanLiteral_append]
  rfl

theorem prefixes_colon : ∀ pre ∈ prefixes, ':' ∈ pre := by decide

/-! ## Both references -/

section Installed

variable {o : Lookup} {ids : Nat → Option (List Char)} (h : Installed o ids) (card : Nat)
  (hcard : card < SALSA_MAX_CARDS)
  (id : List Char) (hid : ids card = some id)

include h hcard hid

theorem get_index_number (rest : List Char) (hrest : NoAlnum rest) (t : Table) :
    Wp (snd_card_get_index o (decimal card ++ rest)) t fun r _ => r = (card : Int) := by
  have hlt : card < 32 := hcard
  have hdigit := decimal_head card rest
  have hslash : (decimal card ++ rest).head? ≠ some '/' := by
    intro heq
    rw [heq] at hdigit
    exact absurd hdigit (by decide)
  unfold snd_card_get_index
  rw [if_neg (List.append_ne_nil_of_left_ne_nil (decimal_ne_nil card) rest), if_neg hslash,
    scanAnyInt_decimal card (by unfold LONG_LIMIT; omega) rest hrest]
  dsimp only
  rw [toInt_eq card (by omega), if_neg (by simp only [SALSA_MAX_CARDS]; omega), BitVec.toNat_ofNat,
    Nat.mod_eq_of_lt (by omega)]
  apply wp_bind
  unfold snd_card_load
  apply wp_bind
  refine (call_wp (o.access card) t).mono fun r t1 ⟨_, hr⟩ => ?_
  rcases hr with ⟨-, e, he, -⟩ | ⟨rfl, -, -⟩
  · rw [(h.present card hcard id hid).1] at he
    cases he
  · apply wp_pure
    exact wp_pure _ t1 _ rfl

/-- The id of a card is found alone, but not with a device behind it. -/
theorem get_index_id (part : DevicePart) (t : Table) :
    Wp (snd_card_get_index o (id ++ part.text)) t fun r _ => r = if part = .none then (card : Int) else -ENODEV := by
  have hvalid := h.valid card hcard id hid
  have hne : id ++ part.text ≠ [] ∧ (id ++ part.text).head? ≠ some '/' := by
    cases hc : id with
    | nil =>
      rw [hc] at hvalid
      cases hvalid.1
    | cons c cs =>
      refine ⟨List.cons_ne_nil _ _, fun hslash => ?_⟩
      cases hslash
      rw [hc] at hvalid
      exact absurd (show '/'.isAlpha = true from hvalid.1) (by decide)
  unfold snd_card_get_index
  rw [if_neg hne.1, if_neg hne.2, scanAnyInt_id id part.text hvalid]
  refine (find_card_wp h (id ++ part.text) _ (fun c hc => List.mem_range.mp hc) t).mono fun r _ hr => ?_
  rw [hr]
  by_cases hpart : part = .none
  · rw [if_pos hpart, hpart]
    simp only [DevicePart.text, List.append_nil, find_id h card hcard id hid]
    rfl
  · have hcomma : ',' ∈ id ++ part.text := by
      refine List.mem_append_right id ?_
      cases part with
      | none => exact absurd rfl hpart
      | device dev => exact List.mem_cons_self
      | subdevice dev subdev => exact List.mem_cons_self
    rw [if_neg hpart, find_other h _ hcomma]
    rfl

/-- What is returned for every combination. -/
theorem get_device_eq (pre : List Char) (hpre : pre ∈ prefixes) (ref : CardRef) (part : DevicePart)
    (hpart : part.InRange)
    (t : Table) :
    Wp (_snd_dev_get_device o (pre ++ (ref.text card id ++ part.text))) t fun r _ =>
      r = if ref = .number ∨ part = .none then .ok (part.target card) else .error (-ENODEV) := by
  have hvalid := h.valid card hcard id hid
  have hcomma : ',' ∉ ref.text card id := by
    cases ref with
    | number => exact fun hmem => absurd (decimal_isDigit card _ hmem) (by decide)
    | id => exact fun hmem => absurd (hvalid.2 _ hmem) (by decide)
  have hindex : Wp (snd_card_get_index o (ref.text card id ++ part.text)) t fun r _ =>
      r = if ref = .number ∨ part = .none then (card : Int) else -ENODEV := by
    cases ref with
    | number =>
      simp only [true_or, if_true]
      exact get_index_number h card hcard id hid part.text (commas_noAlnum part) t
    | id =>
      simp only [reduceCtorEq, false_or]
      exact get_index_id h card hcard id hid part t
  have hcolon : ':' ∈ pre ++ (ref.text card id ++ part.text) := List.mem_append_left _ (prefixes_colon pre hpre)
  unfold _snd_dev_get_device
  rw [if_neg]
  · rw [strip_prefix_append pre hpre]
    apply wp_bind
    refine hindex.mono fun r t1 hr => ?_
    rw [hr]
    by_cases hok : ref = .number ∨ part = .none
    · rw [if_pos hok, if_pos hok, if_neg (by omega)]
      unfold parse_device
      dsimp only
      rw [dropWhile_part _ part hcomma, scan_device_text card part hpart,
        if_neg fun hout => target_dev card part hpart hout.2]
      exact wp_pure _ t1 _ rfl
    · rw [if_neg hok, if_neg hok, if_pos (by decide)]
      exact wp_pure _ t1 _ rfl
  · rintro (heq | heq | heq)
    · exact absurd (heq ▸ hcolon) (by decide)
    · exact absurd (heq ▸ hcolon) (by decide)
    · exact absurd (heq ▸ hcolon) (by decide)

end Installed

/-- A number resolves in every name, and an id where there is no device behind it. -/
theorem get_device_resolves_iff (o : Lookup) (ids : Nat → Option (List Char)) (h : Installed o ids) (pre : List Char)
    (hpre : pre ∈ prefixes) (card : Nat) (hcard : card < SALSA_MAX_CARDS) (id : List Char) (hid : ids card = some id)
    (ref : CardRef) (part : DevicePart) (hpart : part.InRange) (t : Table) :
    Wp (_snd_dev_get_device o (pre ++ (ref.text card id ++ part.text))) t (fun r _ => r = .ok (part.target card)) ↔
      ref = .number ∨ part = .none := by
  obtain ⟨r, t', hrun, hr⟩ := get_device_eq h card hcard id hid pre hpre ref part hpart t
  constructor
  · intro hok
    have hresult := hok.unique hrun
    rw [hr] at hresult
    split at hresult
    · assumption
    · cases hresult
  · intro hok
    rw [if_pos hok] at hr
    exact ⟨r, t', hrun, hr⟩

/-- A system whose only card has the number 0 and the id PCH. -/
def pch_ids (card : Nat) : Option (List Char) := if card = 0 then some "PCH".toList else none

/-- A call of `open` takes a descriptor above all others, if it does not fail. -/
def open_above (fails : Option Failure) : OpenAnswer where
  fails := fails
  pick fds := fds.sup id + 1
  unused := Live.above_notMem

def pch_lookup : Lookup where
  path := ⟨open_above none, .ok ⟨0, "PCH".toList⟩⟩
  access card := if card = 0 then none else some ⟨2, by decide⟩
  card card := ⟨open_above (if card = 0 then none else some ⟨2, by decide⟩), .ok ⟨0, "PCH".toList⟩⟩

theorem pch_id (card : Nat) (id : List Char) (h : pch_ids card = some id) : card = 0 ∧ id = "PCH".toList := by
  unfold pch_ids at h
  split at h
  · exact ⟨‹_›, (Option.some.inj h).symm⟩
  · cases h

theorem pch_installed : Installed pch_lookup pch_ids := by
  constructor
  · intro card _ id h
    obtain ⟨rfl, rfl⟩ := pch_id card id h
    refine ⟨?_, ?_, ⟨0, "PCH".toList⟩, rfl, rfl⟩
    · decide
    · decide
  · intro card _ h
    unfold pch_ids at h
    split at h
    · cases h
    · unfold pch_lookup open_above
      dsimp only
      rw [if_neg ‹_›]
      exact Option.some_ne_none _
  · intro card _ card' _ id h h'
    rw [(pch_id card id h).1, (pch_id card' id h').1]
  · intro card _ id h
    obtain ⟨-, rfl⟩ := pch_id card id h
    exact ⟨by decide, List.all_eq_true.mp (by decide)⟩

/-- No descriptors are open. -/
def no_files : Table := ⟨∅, fun _ => 0, 0, 0, fun fd h => absurd h (Finset.notMem_empty fd)⟩

theorem get_device_resolves_iff_number :
    Wp (_snd_dev_get_device pch_lookup "hw:0,3".toList) no_files fun r _ => r = .ok ⟨0, 3, -1⟩ :=
  (get_device_resolves_iff pch_lookup pch_ids pch_installed "hw:".toList (by decide) 0 (by decide) "PCH".toList rfl
    .number (.device 3) (by unfold DevicePart.InRange; decide) no_files).mpr (.inl rfl)

/-- hw:PCH,0 is not found. -/
theorem id_with_device_fails :
    ¬ Wp (_snd_dev_get_device pch_lookup "hw:PCH,0".toList) no_files fun r _ => r = .ok ⟨0, 0, -1⟩ := by
  intro h
  obtain ⟨r, t', hrun, hr⟩ := get_device_eq pch_installed 0 (by decide) "PCH".toList rfl "hw:".toList (by decide) .id
    (.device 0) (by unfold DevicePart.InRange; decide) no_files
  have hok := h.unique hrun
  rw [hr] at hok
  cases hok

end Salsa.Device
