import Salsa.Ctl.ElemId
import Salsa.Lib.CText

/-!
# Control ids as text

`snd_ctl_ascii_elem_id_get` and `snd_ctl_ascii_elem_id_parse` of `control.c`. The parser
cuts the caller's string at its commas, so it never leaves it as it was; it reads an id
back when the name survives the quotes, the commas and the width of the conversion.
-/

open CText

namespace Salsa.Ctl

def NUMID : List Char := ['n', 'u', 'm', 'i', 'd', '=']
def IFACE : List Char := ['i', 'f', 'a', 'c', 'e', '=']
def NAME : List Char := ['n', 'a', 'm', 'e', '=', '\'']
def INDEX : List Char := ['i', 'n', 'd', 'e', 'x', '=']
def DEVICE : List Char := ['d', 'e', 'v', 'i', 'c', 'e', '=']
def SUBDEVICE : List Char := ['s', 'u', 'b', 'd', 'e', 'v', 'i', 'c', 'e', '=']

/-! ## Printing -/

/-- The text of `%d`. -/
def decimal_int (x : BitVec 32) : List Char :=
  if x.msb then '-' :: decimal (2 ^ 32 - x.toNat) else decimal x.toNat

/-- `if (len < sizeof(buf) && val > 0) len += snprintf(buf + len, sizeof(buf) - len, ..)` -/
def print_field (lit : List Char) (val : BitVec 32) (at_ : Nat × (Nat → Char)) : Nat × (Nat → Char) :=
  if at_.1 < 256 ∧ val > 0#32 then
    let (n, buf) := snprintf at_.2 at_.1 (256 - at_.1) (',' :: (lit ++ decimal_int val))
    (at_.1 + n, buf)
  else at_

/-- `buf` is what the stack holds before. -/
def snd_ctl_ascii_elem_id_get (strdup : Bool) (buf : Nat → Char) (id : SndCtlElemId) :
    Option (List Char) :=
  _snd_ctl_elem_iface_names[id.iface.toNat]?.bind fun iface =>
    let at_ := snprintf buf 0 256
      (NUMID ++ decimal id.numid.toNat ++ ',' :: (IFACE ++ iface) ++ ',' :: (NAME ++ id.name ++ ['\'']))
    let at_ := print_field INDEX id.index at_
    let at_ := print_field DEVICE id.device at_
    let at_ := print_field SUBDEVICE id.subdevice at_
    if strdup then some (readString 256 at_.2) else none

/-! ## Parsing -/

/-- `sscanf(p, "<lit>%d", ..)` -/
def scan_field (lit p : List Char) : Option (BitVec 32) := (scanLiteral lit p).bind scanInt

/-- One round on the token `p`: the changed id, or inside `none` for `-EINVAL`. A text of
20 characters does not fit into `iface[20]`. -/
def parse_token (dst : SndCtlElemId) (p : List Char) : Option (Option SndCtlElemId) :=
  match (scanLiteral IFACE p).bind (scanSet 20 ',') with
  | some iface =>
    if iface.length ≥ 20 then none
    else some ((_snd_ctl_elem_iface_names.findIdx? (iface == ·)).map fun i =>
      { dst with iface := BitVec.ofNat 32 i })
  | none =>
    match (scanLiteral NAME p).bind (scanSet 42 '\'') with
    | some name => some (some { dst with name })
    | none =>
      match scan_field NUMID p with
      | some numid => some (some { dst with numid })
      | none =>
        match scan_field INDEX p with
        | some index => some (some { dst with index })
        | none =>
          match scan_field DEVICE p with
          | some device => some (some { dst with device })
          | none =>
            match scan_field SUBDEVICE p with
            | some subdevice => some (some { dst with subdevice })
            | none => some none

/-- The characters of the token, and the NUL that `strsep` puts in place of a comma. -/
def cut (p : List Char) (rest : Option (List Char)) : List Char := p ++ rest.elim [] (NUL :: ·)

/-- The loop: its result, the id, and what the string's memory holds then. -/
def parse_loop : Nat → SndCtlElemId → List Char → Option (Int × SndCtlElemId × List Char)
  | 0, _, _ => none
  | fuel + 1, dst, s =>
    let (p, rest) := strsep ',' s
    (parse_token dst p).bind fun parsed =>
      match parsed, rest with
      | none, _ => some (-EINVAL, dst, cut p rest)
      | some dst, none => some (0, dst, cut p none)
      | some dst, some rest =>
        (parse_loop fuel dst rest).map fun (ret, dst, mem) => (ret, dst, cut p (some mem))

/-- A string has fewer commas than characters, so the fuel never runs out. -/
def snd_ctl_ascii_elem_id_parse (dst : SndCtlElemId) (str : List Char) :
    Option (Int × SndCtlElemId × List Char) :=
  parse_loop (str.length + 1) dst str

/-! ## The text of an id -/

/-- An id as a control has it: a printable name that ends within its 44 characters. -/
structure ValidId (id : SndCtlElemId) : Prop where
  iface : id.iface.toNat ≤ SND_CTL_ELEM_IFACE_LAST
  numid : id.numid.toNat < 2 ^ 31
  index : id.index.toNat < 2 ^ 31
  device : id.device.toNat < 2 ^ 31
  subdevice : id.subdevice.toNat < 2 ^ 31
  nonempty : 1 ≤ id.name.length
  terminated : id.name.length ≤ 43
  printable : ∀ c ∈ id.name, 32 ≤ c.toNat ∧ c.toNat ≤ 126

def iface_name (id : SndCtlElemId) : List Char := _snd_ctl_elem_iface_names.getD id.iface.toNat []

def field_token (lit : List Char) (val : BitVec 32) : List (List Char) :=
  if val > 0#32 then [lit ++ decimal val.toNat] else []

def more_tokens (id : SndCtlElemId) : List (List Char) :=
  [IFACE ++ iface_name id, NAME ++ id.name ++ ['\'']] ++ field_token INDEX id.index ++
    field_token DEVICE id.device ++ field_token SUBDEVICE id.subdevice

def joined (first : List Char) (rest : List (List Char)) : List Char :=
  first ++ rest.flatMap (',' :: ·)

def id_text (id : SndCtlElemId) : List Char := joined (NUMID ++ decimal id.numid.toNat) (more_tokens id)

theorem decimal_length (n : Nat) (hn : n < 2 ^ 31) : (decimal n).length ≤ 10 :=
  (Nat.length_toDigits_le_iff (by omega) (by omega)).mpr (by omega)

theorem decimal_int_eq (x : BitVec 32) (hx : x.toNat < 2 ^ 31) : decimal_int x = decimal x.toNat := by
  rw [decimal_int, if_neg]
  rw [Bool.not_eq_true, BitVec.msb_eq_false_iff_two_mul_lt]
  omega

theorem iface_name_spec (id : SndCtlElemId) (h : id.iface.toNat ≤ SND_CTL_ELEM_IFACE_LAST) :
    _snd_ctl_elem_iface_names[id.iface.toNat]? = some (iface_name id) ∧
      iface_name id ∈ _snd_ctl_elem_iface_names := by
  have hlt : id.iface.toNat < _snd_ctl_elem_iface_names.length := Nat.lt_succ_of_le h
  rw [iface_name, List.getD_eq_getElem _ _ hlt]
  exact ⟨List.getElem?_eq_getElem hlt, List.getElem_mem hlt⟩

theorem iface_names_shape : ∀ name ∈ _snd_ctl_elem_iface_names,
    name ≠ [] ∧ name.length ≤ 9 ∧ ',' ∉ name ∧ NUL ∉ name := by
  decide

theorem iface_names_find : ∀ i < 7,
    _snd_ctl_elem_iface_names.findIdx? (_snd_ctl_elem_iface_names.getD i [] == ·) = some i := by
  decide

def Printed (st : Nat × (Nat → Char)) (text : List Char) : Prop :=
  st.1 = text.length ∧ HoldsString st.2 text

theorem print_field_spec (lit : List Char) (val : BitVec 32) (st : Nat × (Nat → Char))
    (text : List Char) (hst : Printed st text) (hval : val.toNat < 2 ^ 31)
    (hfit : text.length + lit.length + 11 < 256) :
    Printed (print_field lit val st) (text ++ (field_token lit val).flatMap (',' :: ·)) := by
  obtain ⟨hlen, hstring⟩ := hst
  by_cases hpos : val > 0#32
  · have hdec := decimal_length val.toNat hval
    rw [print_field, if_pos ⟨by omega, hpos⟩, decimal_int_eq val hval, field_token, if_pos hpos, hlen]
    constructor
    · simp [snprintf]
    · simp only [List.flatMap_cons, List.flatMap_nil, List.append_nil]
      refine snprintf_fits st.2 text _ _ hstring.1 ?_
      simp only [List.length_cons, List.length_append]
      omega
  · rw [print_field, if_neg fun h => hpos h.2, field_token, if_neg hpos]
    simpa using ⟨hlen, hstring⟩

theorem field_token_length (lit : List Char) (val : BitVec 32) (hval : val.toNat < 2 ^ 31) :
    ((field_token lit val).flatMap (',' :: ·)).length ≤ lit.length + 11 := by
  unfold field_token
  split_ifs
  · have := decimal_length val.toNat hval
    simp
    omega
  · simp

theorem field_token_ne_NUL (lit : List Char) (val : BitVec 32) (hlit : NUL ∉ lit) :
    NUL ∉ (field_token lit val).flatMap (',' :: ·) := by
  unfold field_token
  split_ifs
  · simp only [List.flatMap_cons, List.flatMap_nil, List.append_nil, List.mem_cons, List.mem_append,
      not_or]
    exact ⟨by decide, hlit, fun h => absurd (decimal_isDigit _ _ h) (by decide)⟩
  · simp

theorem snd_ctl_ascii_elem_id_get_spec (buf : Nat → Char) (id : SndCtlElemId) (h : ValidId id) :
    snd_ctl_ascii_elem_id_get true buf id = some (id_text id) := by
  obtain ⟨hiface, hmem⟩ := iface_name_spec id h.iface
  obtain ⟨-, hifaceLen, -, hifaceNUL⟩ := iface_names_shape _ hmem
  have hnumid := decimal_length id.numid.toNat h.numid
  have hname := h.terminated
  have hindex := field_token_length INDEX id.index h.index
  have hdevice := field_token_length DEVICE id.device h.device
  have hsubdevice := field_token_length SUBDEVICE id.subdevice h.subdevice
  obtain ⟨head, hhead⟩ : ∃ head, NUMID ++ decimal id.numid.toNat ++ ',' :: (IFACE ++ iface_name id) ++
      ',' :: (NAME ++ id.name ++ ['\'']) = head := ⟨_, rfl⟩
  have hheadLen : head.length ≤ 90 := by
    rw [← hhead]
    simp [NUMID, IFACE, NAME]
    omega
  have hheadNUL : NUL ∉ head := by
    rw [← hhead]
    have hdigits : NUL ∉ decimal id.numid.toNat := fun hc => absurd (decimal_isDigit _ _ hc) (by decide)
    have hnameNUL : NUL ∉ id.name := fun hc => absurd (h.printable _ hc).1 (by decide)
    simp only [List.mem_append, List.mem_cons, not_or]
    exact ⟨⟨⟨by decide, hdigits⟩, by decide, by decide, hifaceNUL⟩, by decide, ⟨by decide, hnameNUL⟩,
      by decide, by simp⟩
  have hsize : INDEX.length = 6 ∧ DEVICE.length = 7 ∧ SUBDEVICE.length = 10 := by decide
  have h0 : Printed (snprintf buf 0 256 head) head :=
    ⟨rfl, snprintf_fits buf [] head 256 (holds_nil buf) (by omega)⟩
  have h1 := print_field_spec INDEX id.index _ _ h0 h.index (by omega)
  have h2 := print_field_spec DEVICE id.device _ _ h1 h.device (by rw [List.length_append]; omega)
  have h3 := print_field_spec SUBDEVICE id.subdevice _ _ h2 h.subdevice
    (by rw [List.length_append, List.length_append]; omega)
  have htext : head ++ (field_token INDEX id.index).flatMap (',' :: ·) ++
      (field_token DEVICE id.device).flatMap (',' :: ·) ++
      (field_token SUBDEVICE id.subdevice).flatMap (',' :: ·) = id_text id := by
    rw [← hhead]
    simp [id_text, joined, more_tokens]
  have hNUL : NUL ∉ id_text id := by
    rw [← htext]
    simp only [List.mem_append, not_or]
    exact ⟨⟨⟨hheadNUL, field_token_ne_NUL _ _ (by decide)⟩, field_token_ne_NUL _ _ (by decide)⟩,
      field_token_ne_NUL _ _ (by decide)⟩
  have hfit : (id_text id).length < 256 := by
    rw [← htext]
    simp only [List.length_append]
    omega
  rw [htext] at h3
  simp only [snd_ctl_ascii_elem_id_get, hiface, Option.bind_some, hhead, if_true]
  rw [readString_eq 256 _ _ ⟨h3.2, hNUL⟩ hfit]

/-! ## Reading the tokens -/

/-- What the quotes, the commas and the width of the conversion leave of a name. -/
def NameFits (name : List Char) : Prop := ',' ∉ name ∧ '\'' ∉ name ∧ name.length ≤ 42

instance (name : List Char) : Decidable (NameFits name) := inferInstanceAs (Decidable (_ ∧ _ ∧ _))

theorem joined_cons (first next : List Char) (rest : List (List Char)) :
    joined first (next :: rest) = first ++ ',' :: joined next rest := by
  simp [joined]

theorem parse_loop_joined (dst dst' : SndCtlElemId) (first : List Char) (rest : List (List Char))
    (fuel : Nat) (hcomma : ∀ tok ∈ first :: rest, ',' ∉ tok) (hfuel : rest.length < fuel)
    (hfold : (first :: rest).foldlM (fun dst p => (parse_token dst p).join) dst = some dst') :
    ∃ mem, parse_loop fuel dst (joined first rest) = some (0, dst', mem) := by
  induction rest generalizing dst first fuel with
  | nil =>
    obtain ⟨fuel, rfl⟩ : ∃ k, fuel = k + 1 := ⟨fuel - 1, by omega⟩
    have hp : parse_token dst first = some (some dst') := by
      simpa [List.foldlM, Option.join_eq_some_iff] using hfold
    refine ⟨cut first none, ?_⟩
    simp [joined, parse_loop, strsep_last ',' first (hcomma first List.mem_cons_self), hp]
  | cons next rest ih =>
    obtain ⟨fuel, rfl⟩ : ∃ k, fuel = k + 1 := ⟨fuel - 1, by omega⟩
    rw [List.foldlM_cons] at hfold
    obtain ⟨dst1, hp, hfold⟩ := Option.bind_eq_some_iff.mp hfold
    rw [Option.join_eq_some_iff] at hp
    obtain ⟨mem, hmem⟩ := ih dst1 next fuel (fun tok h => hcomma tok (List.mem_cons_of_mem _ h))
      (by simpa using hfuel) hfold
    refine ⟨cut first (some mem), ?_⟩
    rw [joined_cons]
    simp [parse_loop, strsep_append ',' first _ (hcomma first List.mem_cons_self), hp, hmem]

theorem scan_field_append (lit : List Char) (n : Nat) (hn : n < 2 ^ 32) :
    scan_field lit (lit ++ decimal n) = some (BitVec.ofNat 32 n) := by
  have hscan := scanInt_decimal n (by unfold LONG_LIMIT; omega) [] (by simp [NoDigit])
  rw [List.append_nil] at hscan
  rw [scan_field, scanLiteral_append, Option.bind_some, hscan]

theorem ofNat_toNat_eq (x : BitVec 32) : BitVec.ofNat 32 x.toNat = x := by
  rw [BitVec.ofNat_toNat, BitVec.setWidth_eq]

theorem parse_token_numid (dst : SndCtlElemId) (x : BitVec 32) :
    parse_token dst (NUMID ++ decimal x.toNat) = some (some { dst with numid := x }) := by
  have hscan := scan_field_append NUMID x.toNat x.isLt
  rw [ofNat_toNat_eq] at hscan
  rw [parse_token, scanLiteral_mismatch IFACE NUMID _ (by decide),
    scanLiteral_mismatch NAME NUMID _ (by decide), hscan]
  rfl

theorem parse_token_index (dst : SndCtlElemId) (x : BitVec 32) :
    parse_token dst (INDEX ++ decimal x.toNat) = some (some { dst with index := x }) := by
  have hscan := scan_field_append INDEX x.toNat x.isLt
  rw [ofNat_toNat_eq] at hscan
  rw [parse_token, scanLiteral_mismatch IFACE INDEX _ (by decide),
    scanLiteral_mismatch NAME INDEX _ (by decide), hscan, scan_field,
    scanLiteral_mismatch NUMID INDEX _ (by decide)]
  rfl

theorem parse_token_device (dst : SndCtlElemId) (x : BitVec 32) :
    parse_token dst (DEVICE ++ decimal x.toNat) = some (some { dst with device := x }) := by
  have hscan := scan_field_append DEVICE x.toNat x.isLt
  rw [ofNat_toNat_eq] at hscan
  rw [parse_token, scanLiteral_mismatch IFACE DEVICE _ (by decide),
    scanLiteral_mismatch NAME DEVICE _ (by decide), hscan, scan_field, scan_field,
    scanLiteral_mismatch NUMID DEVICE _ (by decide), scanLiteral_mismatch INDEX DEVICE _ (by decide)]
  rfl

theorem parse_token_subdevice (dst : SndCtlElemId) (x : BitVec 32) :
    parse_token dst (SUBDEVICE ++ decimal x.toNat) = some (some { dst with subdevice := x }) := by
  have hscan := scan_field_append SUBDEVICE x.toNat x.isLt
  rw [ofNat_toNat_eq] at hscan
  rw [parse_token, scanLiteral_mismatch IFACE SUBDEVICE _ (by decide),
    scanLiteral_mismatch NAME SUBDEVICE _ (by decide), hscan, scan_field, scan_field, scan_field,
    scanLiteral_mismatch NUMID SUBDEVICE _ (by decide),
    scanLiteral_mismatch INDEX SUBDEVICE _ (by decide),
    scanLiteral_mismatch DEVICE SUBDEVICE _ (by decide)]
  rfl

theorem scanSet_all (width : Nat) (stop : Char) (w rest : List Char) (hne : w ≠ []) (hw : w.length ≤ width)
    (hstop : stop ∉ w) (hrest : rest.head? = some stop ∨ rest = []) :
    scanSet width stop (w ++ rest) = some w := by
  have hall : ∀ c ∈ w, (decide (c ≠ stop)) = true := fun c hc => by
    simp only [decide_eq_true_eq]
    rintro rfl
    exact hstop hc
  have htake : ((w ++ rest).take width).takeWhile (· ≠ stop) = w := by
    rw [List.take_append, List.take_of_length_le hw, List.takeWhile_append_of_pos hall]
    rcases hrest with h | rfl
    · cases rest with
      | nil => cases h
      | cons c rest =>
        obtain rfl : c = stop := by simpa using h
        cases width - w.length <;> simp
    · simp
  rw [scanSet, htake, if_neg (by simpa using hne)]

theorem parse_token_iface (dst : SndCtlElemId) (id : SndCtlElemId)
    (h : id.iface.toNat ≤ SND_CTL_ELEM_IFACE_LAST) :
    parse_token dst (IFACE ++ iface_name id) = some (some { dst with iface := id.iface }) := by
  obtain ⟨hne, hlen, hcomma, -⟩ := iface_names_shape _ (iface_name_spec id h).2
  have hset := scanSet_all 20 ',' (iface_name id) [] hne (by omega) hcomma (Or.inr rfl)
  rw [List.append_nil] at hset
  have hfind : _snd_ctl_elem_iface_names.findIdx? (iface_name id == ·) = some id.iface.toNat :=
    iface_names_find _ (Nat.lt_succ_of_le h)
  rw [parse_token, scanLiteral_append, Option.bind_some, hset]
  simp only [hfind, Option.map_some, ofNat_toNat_eq]
  rw [if_neg (by omega)]

theorem parse_token_name (dst : SndCtlElemId) (name : List Char) (hne : name ≠ []) (h : NameFits name) :
    parse_token dst (NAME ++ name ++ ['\'']) = some (some { dst with name }) := by
  have hset := scanSet_all 42 '\'' name ['\''] hne h.2.2 h.2.1 (Or.inl rfl)
  rw [List.append_assoc, parse_token, scanLiteral_mismatch IFACE NAME _ (by decide), scanLiteral_append,
    Option.bind_some, hset]
  rfl

theorem fold_field (lit : List Char) (val : BitVec 32) (dst dst' : SndCtlElemId)
    (hread : parse_token dst (lit ++ decimal val.toNat) = some (some dst'))
    (hzero : val = 0#32 → dst' = dst) :
    (field_token lit val).foldlM (fun dst p => (parse_token dst p).join) dst = some dst' := by
  unfold field_token
  split_ifs with hpos
  · simp [List.foldlM, hread]
  · have hval : val = 0#32 := by
      apply BitVec.eq_of_toNat_eq
      have : ¬ 0 < val.toNat := hpos
      simp only [BitVec.toNat_ofNat, Nat.zero_mod]
      omega
    rw [hzero hval]
    rfl

theorem fold_tokens (id : SndCtlElemId) (h : ValidId id) (hname : NameFits id.name) :
    ((NUMID ++ decimal id.numid.toNat) :: more_tokens id).foldlM
      (fun dst p => (parse_token dst p).join) zeroed_id = some id := by
  have hne : id.name ≠ [] := List.ne_nil_of_length_pos h.nonempty
  have hindex := fold_field INDEX id.index _ _ (parse_token_index
    ⟨id.numid, id.iface, 0#32, 0#32, id.name, 0#32⟩ id.index) (fun h0 => by rw [h0])
  have hdevice := fold_field DEVICE id.device _ _ (parse_token_device
    ⟨id.numid, id.iface, 0#32, 0#32, id.name, id.index⟩ id.device) (fun h0 => by rw [h0])
  have hsubdevice := fold_field SUBDEVICE id.subdevice _ _ (parse_token_subdevice
    ⟨id.numid, id.iface, id.device, 0#32, id.name, id.index⟩ id.subdevice) (fun h0 => by rw [h0])
  simp only [more_tokens, List.foldlM_cons, List.foldlM_append, List.foldlM_nil, parse_token_numid,
    parse_token_iface _ _ h.iface, parse_token_name _ _ hne hname, Option.join_some, Option.bind_eq_bind,
    Option.bind_some, zeroed_id, hindex, hdevice, hsubdevice, pure]

theorem field_token_no_comma (lit : List Char) (val : BitVec 32) (hlit : ',' ∉ lit) :
    ∀ tok ∈ field_token lit val, ',' ∉ tok := by
  unfold field_token
  split_ifs
  · intro tok htok
    rw [List.mem_singleton.mp htok, List.mem_append, not_or]
    exact ⟨hlit, fun h => absurd (decimal_isDigit _ _ h) (by decide)⟩
  · simp

theorem tokens_no_comma (id : SndCtlElemId) (h : ValidId id) (hname : ',' ∉ id.name) :
    ∀ tok ∈ (NUMID ++ decimal id.numid.toNat) :: more_tokens id, ',' ∉ tok := by
  have hdigits : ',' ∉ decimal id.numid.toNat := fun hc => absurd (decimal_isDigit _ _ hc) (by decide)
  obtain ⟨-, -, hiface, -⟩ := iface_names_shape _ (iface_name_spec id h.iface).2
  intro tok htok
  simp only [more_tokens, List.mem_append, List.mem_cons, List.not_mem_nil, or_false] at htok
  rcases htok with rfl | (((rfl | rfl) | htok) | htok) | htok
  · rw [List.mem_append, not_or]
    exact ⟨by decide, hdigits⟩
  · rw [List.mem_append, not_or]
    exact ⟨by decide, hiface⟩
  · simp only [List.mem_append, not_or]
    exact ⟨⟨by decide, hname⟩, by decide⟩
  · exact field_token_no_comma _ _ (by decide) tok htok
  · exact field_token_no_comma _ _ (by decide) tok htok
  · exact field_token_no_comma _ _ (by decide) tok htok

theorem joined_length (first : List Char) (rest : List (List Char)) :
    rest.length ≤ (joined first rest).length := by
  induction rest generalizing first with
  | nil => simp
  | cons next rest ih =>
    have := ih next
    rw [joined_cons, List.length_append, List.length_cons, List.length_cons]
    omega

theorem parse_id_text (id : SndCtlElemId) (h : ValidId id) (hname : NameFits id.name) :
    ∃ mem, snd_ctl_ascii_elem_id_parse zeroed_id (id_text id) = some (0, id, mem) :=
  parse_loop_joined zeroed_id id _ _ _ (tokens_no_comma id h hname.1)
    (Nat.lt_succ_of_le (joined_length _ _)) (fold_tokens id h hname)

/-! ## What every parse does -/

theorem scanLiteral_some (lit p s : List Char) (h : scanLiteral lit p = some s) : s = p.drop lit.length := by
  rw [scanLiteral] at h
  split_ifs at h
  exact (Option.some.inj h).symm

theorem scanSet_some (width : Nat) (stop : Char) (s w : List Char) (h : scanSet width stop s = some w) :
    w = (s.take width).takeWhile (· ≠ stop) := by
  rw [scanSet] at h
  split_ifs at h
  exact (Option.some.inj h).symm

theorem parse_token_nameFits (dst dst' : SndCtlElemId) (p : List Char) (hp : ',' ∉ p)
    (h : parse_token dst p = some (some dst')) (hdst : NameFits dst.name) : NameFits dst'.name := by
  unfold parse_token at h
  split at h
  · split_ifs at h
    obtain ⟨i, -, rfl⟩ := Option.map_eq_some_iff.mp (Option.some.inj h)
    exact hdst
  split at h
  · next name hname =>
    obtain ⟨s, hlit, hset⟩ := Option.bind_eq_some_iff.mp hname
    obtain rfl : _ = dst' := Option.some.inj (Option.some.inj h)
    obtain rfl := scanSet_some _ _ _ _ hset
    obtain rfl := scanLiteral_some _ _ _ hlit
    refine ⟨fun hc => hp ?_, fun hc => ?_, ?_⟩
    · exact List.mem_of_mem_drop (List.mem_of_mem_take ((List.takeWhile_prefix _).mem hc))
    · simpa using List.mem_takeWhile_imp hc
    · exact (List.takeWhile_prefix _).length_le.trans (by simp)
  repeat' split at h
  all_goals cases h
  all_goals exact hdst

/-- Whatever the text, the name that is read has no comma and no quote. -/
theorem parse_loop_nameFits (fuel : Nat) (dst dst' : SndCtlElemId) (s mem : List Char) (ret : Int)
    (h : parse_loop fuel dst s = some (ret, dst', mem)) (hdst : NameFits dst.name) :
    NameFits dst'.name := by
  induction fuel generalizing dst s mem with
  | zero => cases h
  | succ fuel ih =>
    have hcomma := (strsep_spec ',' s).1
    obtain ⟨⟨p, rest⟩, hsep⟩ : ∃ r, strsep ',' s = r := ⟨_, rfl⟩
    rw [parse_loop, hsep] at h
    rw [hsep] at hcomma
    obtain ⟨parsed, hp, h⟩ := Option.bind_eq_some_iff.mp h
    match parsed, rest with
    | none, _ =>
      simp only [Option.some.injEq, Prod.mk.injEq] at h
      rw [← h.2.1]
      exact hdst
    | some dst1, none =>
      simp only [Option.some.injEq, Prod.mk.injEq] at h
      rw [← h.2.1]
      exact parse_token_nameFits dst dst1 p hcomma hp hdst
    | some dst1, some rest =>
      obtain ⟨⟨ret1, dst2, mem1⟩, hloop, heq⟩ := Option.map_eq_some_iff.mp h
      simp only [Prod.mk.injEq] at heq
      obtain ⟨rfl, rfl, -⟩ := heq
      exact ih dst1 rest mem1 hloop (parse_token_nameFits dst dst1 p hcomma hp hdst)

theorem parse_loop_cuts (fuel : Nat) (dst dst' : SndCtlElemId) (s mem : List Char) (ret : Int)
    (hcomma : ',' ∈ s) (h : parse_loop fuel dst s = some (ret, dst', mem)) : mem ≠ s := by
  obtain ⟨tok, rest, rfl, hnot⟩ := List.eq_append_cons_of_mem hcomma
  have hcut : ∃ rest', mem = cut tok (some rest') := by
    cases fuel with
    | zero => cases h
    | succ fuel =>
      rw [parse_loop, strsep_append ',' tok rest hnot] at h
      obtain ⟨parsed, -, h⟩ := Option.bind_eq_some_iff.mp h
      cases parsed with
      | none =>
        simp only [Option.some.injEq, Prod.mk.injEq] at h
        exact ⟨rest, h.2.2.symm⟩
      | some dst1 =>
        obtain ⟨⟨ret1, dst2, mem1⟩, -, heq⟩ := Option.map_eq_some_iff.mp h
        simp only [Prod.mk.injEq] at heq
        exact ⟨mem1, heq.2.2.symm⟩
  obtain ⟨rest', rfl⟩ := hcut
  intro heq
  have := (List.cons.inj (List.append_cancel_left heq)).1
  exact absurd this (by decide)

/-! ## The round trip -/

/-- The text of the id is read back: success, and the same six fields. -/
def ReadsBack (buf : Nat → Char) (id : SndCtlElemId) : Prop :=
  ∃ text mem, snd_ctl_ascii_elem_id_get true buf id = some text ∧
    snd_ctl_ascii_elem_id_parse zeroed_id text = some (0, id, mem)

/-- The text is read back, and the string that is read stays as it was. -/
def RoundTrips (buf : Nat → Char) (id : SndCtlElemId) : Prop :=
  ∃ text, snd_ctl_ascii_elem_id_get true buf id = some text ∧
    snd_ctl_ascii_elem_id_parse zeroed_id text = some (0, id, text)

/-- No text of an id survives its parsing. -/
theorem string_is_cut (buf : Nat → Char) (id : SndCtlElemId) (h : ValidId id) : ¬ RoundTrips buf id := by
  rintro ⟨text, htext, hparse⟩
  obtain rfl : id_text id = text := Option.some.inj ((snd_ctl_ascii_elem_id_get_spec buf id h).symm.trans htext)
  have hcomma : ',' ∈ id_text id := by simp [id_text, joined, more_tokens]
  exact parse_loop_cuts _ _ _ _ _ _ hcomma hparse rfl

theorem readsBack_iff (buf : Nat → Char) (id : SndCtlElemId) (h : ValidId id) :
    ReadsBack buf id ↔ NameFits id.name := by
  constructor
  · rintro ⟨text, mem, -, hparse⟩
    exact parse_loop_nameFits _ _ _ _ _ _ hparse (by decide)
  · intro hname
    obtain ⟨mem, hparse⟩ := parse_id_text id h hname
    exact ⟨id_text id, mem, snd_ctl_ascii_elem_id_get_spec buf id h, hparse⟩

/-- The string is never left as it was, and the fields are read back when the name fits. -/
theorem never_roundTrips (buf : Nat → Char) (id : SndCtlElemId) (h : ValidId id) :
    ¬ RoundTrips buf id ∧ (ReadsBack buf id ↔ NameFits id.name) :=
  ⟨string_is_cut buf id h, readsBack_iff buf id h⟩

/-- numid=3,iface=MIXER,name='PCM' -/
def pcm_id : SndCtlElemId := ⟨3#32, 2#32, 0#32, 0#32, ['P', 'C', 'M'], 0#32⟩

theorem pcm_id_valid : ValidId pcm_id := by
  refine ⟨by decide, by decide, by decide, by decide, by decide, by decide, by decide, ?_⟩
  intro c hc
  simp only [pcm_id, List.mem_cons, List.not_mem_nil, or_false] at hc
  rcases hc with rfl | rfl | rfl <;> decide

theorem never_roundTrips_pcm :
    ¬ RoundTrips (fun _ => NUL) pcm_id ∧
      (ReadsBack (fun _ => NUL) pcm_id ↔ NameFits ['P', 'C', 'M']) :=
  never_roundTrips (fun _ => NUL) pcm_id pcm_id_valid

theorem pcm_string_is_cut : ¬ ∀ buf id, ValidId id → RoundTrips buf id := fun hall =>
  string_is_cut (fun _ => NUL) pcm_id pcm_id_valid (hall _ _ pcm_id_valid)

end Salsa.Ctl
