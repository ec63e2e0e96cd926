import Salsa.Ctl.EnumNames
import Salsa.Lib.Memory
import Salsa.Lib.Terminated

/-!
# User-defined controls

The functions of `control.c` that add controls of a program's own. The kernel gets the names of an enumerated control
as one text, and tells them again one by one.
-/

namespace Salsa.Ctl.UserElems

open CInt CText Terminated

/-! ## The kernel -/

def SNDRV_CTL_ELEM_ACCESS_READWRITE : BitVec 32 := 0x3#32
def SNDRV_CTL_ELEM_ACCESS_TLV_READWRITE : BitVec 32 := 0x30#32

/-- What `SNDRV_CTL_IOCTL_ELEM_ADD` is asked for. The limits are those of the type, and `names` are the
`names_length` characters at `names_ptr`. -/
structure UserElem where
  id : SndCtlElemId
  type : SndCtlElemType
  _access : BitVec 32
  count : BitVec 32
  min : BitVec 64
  max : BitVec 64
  step : BitVec 64
  items : BitVec 32
  names : List Char

/-- A card with states `κ`. Its ioctls return an errno, 0 for success. -/
structure Card (κ : Type) where
  protocol : Int
  elem_add : UserElem → κ → Nat × κ
  elem_write : SndCtlElemId → (Nat → BitVec 64) → κ → Nat × κ
  elem_info : κ → SndCtlElemId → ElemInfo

/-- The values that there is room for, in `integer` and in `integer64`. -/
def room : SndCtlElemType → Nat
  | .integer64 => 64
  | _ => 128

/-- What is known of the kernel: there is room for the values of what it adds, and it tells the name of each item of
what is enumerated. -/
structure Documented {κ : Type} (c : Card κ) : Prop where
  count : ∀ e k, (c.elem_add e k).1 = 0 → e.count.toNat ≤ room e.type
  names : ∀ e k, (c.elem_add e k).1 = 0 → e.type = .enumerated → ∀ (info : SndCtlElemInfo) (i : Nat),
    i < e.items.toNat → info.type = .enumerated →
      c.elem_info (c.elem_add e k).2 e.id { info with item := BitVec.ofNat 32 i } =
        some { info with item := BitVec.ofNat 32 i, name := item NUL i e.names }

/-! ## The source -/

section Source

variable {κ : Type} (c : Card κ)

def snd_ctl_elem_add (e : UserElem) (k : κ) : Int × κ :=
  let (errno, k) := c.elem_add e k
  (-(errno : Int), k)

def snd_ctl_elem_write (id : SndCtlElemId) (value : Nat → BitVec 64) (k : κ) : Int × κ :=
  let (errno, k) := c.elem_write id value k
  (-(errno : Int), k)

/-- The loop that sets the first `n` of `size` values. -/
def value_loop (size : Nat) (v : BitVec 64) : Nat → (Nat → BitVec 64) → C (Nat → BitVec 64)
  | 0, value => return value
  | n + 1, value => do
    let value ← value_loop size v n value
    if n < size then return Function.update value n v else .error .read

/-- The integer types differ in their access and in the room for their values. -/
def add_values (e : UserElem) (k : κ) : C (Int × κ) := do
  let (err, k) := snd_ctl_elem_add c e k
  if err < 0 then return (err, k)
  else do
    let value ← value_loop (room e.type) e.min e.count.toNat fun _ => 0#64
    return snd_ctl_elem_write c e.id value k

def snd_ctl_elem_add_integer (id : SndCtlElemId) (count : BitVec 32) (min max step : BitVec 64) (k : κ) : C (Int × κ) :=
  add_values c
    { id, type := .integer
      _access := SNDRV_CTL_ELEM_ACCESS_READWRITE ||| SNDRV_CTL_ELEM_ACCESS_TLV_READWRITE
      count, min, max, step, items := 0#32, names := [] } k

def snd_ctl_elem_add_integer64 (id : SndCtlElemId) (count : BitVec 32) (min max step : BitVec 64) (k : κ) :
    C (Int × κ) :=
  add_values c { id, type := .integer64, _access := 0#32, count, min, max, step, items := 0#32, names := [] } k

def snd_ctl_elem_add_boolean (id : SndCtlElemId) (count : BitVec 32) (k : κ) : Int × κ :=
  snd_ctl_elem_add c
    { id, type := .boolean, _access := 0#32, count, min := 0#64, max := 1#64, step := 0#64, items := 0#32
      names := [] } k

def snd_ctl_elem_add_iec958 (id : SndCtlElemId) (k : κ) : Int × κ :=
  snd_ctl_elem_add c
    { id, type := .iec958, _access := 0#32, count := 1#32, min := 0#64, max := 0#64, step := 0#64, items := 0#32
      names := [] } k

def BUF_SIZE : Nat := 256

/-- The loop over the names, and the length in the end; there is none where -ENOMEM is returned. The test is made in
a `size_t`, and `memcpy` takes one. -/
def name_loop : Nat → List (List Char) → List Char → Int → C (Option (List Char × Int))
  | 0, _, buf, len => return some (buf, len)
  | _ + 1, [], _, _ => .error .read
  | items + 1, name :: names, buf, len => do
    let l := CInt.cut (name.length + 1)
    let sum ← CInt.int (len + l)
    if sum < 0 ∨ BUF_SIZE ≤ sum then return none
    else if l < 0 then .error .read
    else
      match Memory.poke buf len ((name ++ [NUL]).take l.toNat) with
      | none => .error .read
      | some buf => name_loop items names buf sum

/-- `stack` is what `buf` happens to hold. -/
def snd_ctl_elem_add_enumerated (stack : Nat → Char) (id : SndCtlElemId) (count items : BitVec 32)
    (names : List (List Char)) (k : κ) : C (Int × κ) :=
  if c.protocol < SNDRV_PROTOCOL_VERSION 2 0 7 then return (- ENXIO, k)
  else if items = 0#32 then return (-EINVAL, k)
  else do
    match ← name_loop items.toNat names ((List.range BUF_SIZE).map stack) 0 with
    | none => return (-ENOMEM, k)
    | some (buf, len) =>
      return snd_ctl_elem_add c
        { id, type := .enumerated, _access := 0#32, count, min := 0#64, max := 0#64, step := 0#64, items
          names := buf.take len.toNat } k

end Source

/-! ## The values of integers -/

theorem value_loop_eq (size : Nat) (v : BitVec 64) (n : Nat) (value : Nat → BitVec 64) (h : n ≤ size) :
    value_loop size v n value = .ok fun i => if i < n then v else value i := by
  induction n with
  | zero => rfl
  | succ n ih =>
    rw [value_loop, ih (Nat.le_of_succ_le h), ok_bind, if_pos (Nat.lt_of_succ_le h)]
    apply congrArg
    funext i
    rw [Function.update_apply]
    split_ifs <;> first | rfl | omega

/-- A count that the kernel took has room, and all values start at the least. -/
theorem add_values_eq {κ : Type} {c : Card κ} (hc : Documented c) (e : UserElem) (k : κ) :
    add_values c e k = .ok (if (snd_ctl_elem_add c e k).1 < 0 then snd_ctl_elem_add c e k
      else snd_ctl_elem_write c e.id (fun i => if i < e.count.toNat then e.min else 0#64)
        (snd_ctl_elem_add c e k).2) := by
  unfold add_values
  dsimp only
  split
  · rfl
  · rename_i hadded
    have hzero : (c.elem_add e k).1 = 0 := by
      change ¬ (-(c.elem_add e k).1 : Int) < 0 at hadded
      omega
    rw [value_loop_eq _ _ _ _ (hc.count e k hzero)]
    rfl

/-! ## The buffer of the names -/

section Buffer

variable (items len : Nat) (buf : List Char)

/-- Strings of a program, each short enough to be counted in an `int` behind what the buffer holds. -/
structure Strings (names : List (List Char)) : Prop where
  short : ∀ name ∈ names, name.length < 2147483391
  ended : ∀ name ∈ names, NUL ∉ name

theorem Strings.tail {name : List Char} {names : List (List Char)} (h : Strings (name :: names)) : Strings names :=
  ⟨fun name hname => h.short name (List.mem_cons_of_mem _ hname),
    fun name hname => h.ended name (List.mem_cons_of_mem _ hname)⟩

/-- The test keeps the copy in the buffer, so one name either is put behind the others or ends the loop. -/
theorem name_step (name : List Char) (names : List (List Char)) (hbuf : buf.length = BUF_SIZE) (hlen : len < BUF_SIZE)
    (hshort : name.length < 2147483391) :
    name_loop (items + 1) (name :: names) buf len =
      if BUF_SIZE ≤ len + (name.length + 1) then .ok none
      else name_loop items names (buf.take len ++ (name ++ [NUL]) ++ buf.drop (len + (name.length + 1)))
        ((len + (name.length + 1) : Nat) : Int) := by
  have hsize : BUF_SIZE = 256 := rfl
  have hl : IsInt (name.length + 1) := ⟨by omega, by omega⟩
  have hsum : IsInt (len + (name.length + 1)) := ⟨by omega, by omega⟩
  rw [name_loop, hl.cut, hsum.ok, ok_bind]
  by_cases hfull : BUF_SIZE ≤ len + (name.length + 1)
  · rw [if_pos (.inr (by omega)), if_pos hfull]
    rfl
  · have htext : (name ++ [NUL]).length = name.length + 1 := List.length_append
    rw [if_neg (by omega), if_neg (by omega), if_neg hfull, List.take_of_length_le (by omega),
      Memory.poke_of_fits buf len (name ++ [NUL]) (by omega), htext]
    dsimp only
    rw [Int.natCast_add, Int.natCast_add, Int.natCast_one]

variable (names : List (List Char)) (hbuf : buf.length = BUF_SIZE) (hlen : len < BUF_SIZE) (h : Strings names)

include hbuf hlen h

/-- No byte is left over: the buffer has to have room for one more than the names. -/
theorem name_loop_full (hfull : BUF_SIZE ≤ len + (join NUL names).length) :
    name_loop names.length names buf len = .ok none := by
  induction names generalizing len buf with
  | nil => exact absurd hfull (Nat.not_le.mpr hlen)
  | cons name names ih =>
    rw [List.length_cons, name_step _ _ _ _ _ hbuf hlen (h.short name List.mem_cons_self)]
    split
    · rfl
    · rename_i hroom
      rw [join_cons, List.length_append, List.length_cons] at hfull
      apply ih
      · simp only [List.length_append, List.length_take, List.length_drop, List.length_singleton]
        omega
      · omega
      · exact h.tail
      · omega

theorem name_loop_fits (hfits : len + (join NUL names).length < BUF_SIZE) :
    ∃ buf', name_loop names.length names buf len = .ok (some (buf', ((len + (join NUL names).length : Nat) : Int))) ∧
      buf'.take (len + (join NUL names).length) = buf.take len ++ join NUL names := by
  induction names generalizing len buf with
  | nil => exact ⟨buf, rfl, (List.append_nil _).symm⟩
  | cons name names ih =>
    rw [join_cons, List.length_append, List.length_cons] at hfits
    rw [List.length_cons, name_step _ _ _ _ _ hbuf hlen (h.short name List.mem_cons_self), if_neg (by omega)]
    have htake : (buf.take len ++ (name ++ [NUL]) ++ buf.drop (len + (name.length + 1))).take
        (len + (name.length + 1)) = buf.take len ++ (name ++ [NUL]) := by
      apply List.take_left'
      simp only [List.length_append, List.length_take, List.length_singleton]
      omega
    obtain ⟨buf', hloop, hbuf'⟩ := ih (len + (name.length + 1))
      (buf.take len ++ (name ++ [NUL]) ++ buf.drop (len + (name.length + 1)))
      (by
        simp only [List.length_append, List.length_take, List.length_drop, List.length_singleton]
        omega)
      (by omega) h.tail (by omega)
    have hsum : len + (join NUL (name :: names)).length = len + (name.length + 1) + (join NUL names).length := by
      rw [join_cons, List.length_append, List.length_cons]
      omega
    refine ⟨buf', ?_, ?_⟩
    · rw [hsum, hloop]
    · rw [hsum, hbuf', htake, join_cons]
      simp only [List.append_assoc, List.singleton_append]

end Buffer

/-! ## What becomes of the names -/

section Enumerated

variable {κ : Type} {c : Card κ} (id : SndCtlElemId) (count items : BitVec 32) (names : List (List Char))

/-- The request for these names. -/
def enumerated : UserElem :=
  { id, type := .enumerated, _access := 0#32, count, min := 0#64, max := 0#64, step := 0#64, items
    names := join NUL names }

/-- What the call comes to, whatever is on the stack. -/
def enumerated_result (c : Card κ) (k : κ) : Int × κ :=
  if c.protocol < SNDRV_PROTOCOL_VERSION 2 0 7 then (- ENXIO, k)
  else if names = [] then (-EINVAL, k)
  else if BUF_SIZE ≤ (join NUL names).length then (-ENOMEM, k)
  else snd_ctl_elem_add c (enumerated id count items names) k

variable (h : Strings names) (hitems : names.length = items.toNat)

include h hitems

theorem snd_ctl_elem_add_enumerated_eq (stack : Nat → Char) (k : κ) :
    snd_ctl_elem_add_enumerated c stack id count items names k = .ok (enumerated_result id count items names c k) := by
  unfold snd_ctl_elem_add_enumerated enumerated_result
  have hnil : items = 0#32 ↔ names = [] := by
    rw [← List.length_eq_zero_iff, hitems, ← BitVec.toNat_inj]
    rfl
  have hbuf : ((List.range BUF_SIZE).map stack).length = BUF_SIZE := by simp
  simp only [hnil, ← hitems]
  split
  · rfl
  split
  · rfl
  split
  · rename_i hfull
    have hloop := name_loop_full 0 _ names hbuf (by decide) h (by omega)
    rw [Int.natCast_zero] at hloop
    rw [hloop]
    rfl
  · rename_i hfits
    obtain ⟨buf, hloop, hkept⟩ := name_loop_fits 0 _ names hbuf (by decide) h (by omega)
    rw [Nat.zero_add, Int.natCast_zero] at hloop
    rw [Nat.zero_add, List.take_zero, List.nil_append] at hkept
    rw [hloop, ok_bind]
    dsimp only
    rw [Int.toNat_natCast, hkept]
    rfl

theorem added (hc : Documented c) (k : κ) (hadded : (enumerated_result id count items names c k).1 = 0)
    (info : SndCtlElemInfo) (htype : info.type = .enumerated) (hinfo : info.items = items) :
    names.length < BUF_SIZE ∧
      Reports (c.elem_info (enumerated_result id count items names c k).2 id) info names := by
  unfold enumerated_result at hadded ⊢
  split at hadded
  · cases hadded
  split at hadded
  · cases hadded
  split at hadded
  · cases hadded
  · rename_i hprotocol hnames hfits
    rw [if_neg hprotocol, if_neg hnames, if_neg hfits]
    constructor
    · have hle := length_le_join NUL names
      omega
    · refine ⟨htype, hinfo ▸ hitems.symm, fun i hi name => ?_⟩
      have hzero : (c.elem_add (enumerated id count items names) k).1 = 0 := by
        exact Int.natCast_eq_zero.mp (Int.neg_eq_zero.mp hadded)
      have hitem := item_join NUL names [] h.ended i hi
      rw [List.append_nil] at hitem
      have htold := hc.names (enumerated id count items names) k hzero rfl { info with name := name } i
        (hitems ▸ hi) htype
      rw [← hitem]
      exact htold

end Enumerated

/-! ## A card with one control -/

/-- It takes a control with room for its values, in place of the one before. -/
def shelf : Card (Option UserElem) where
  protocol := SNDRV_PROTOCOL_VERSION 2 0 7
  elem_add e k := if e.count.toNat ≤ room e.type then (0, some e) else (22, k)
  elem_write _ _ k := (0, k)
  elem_info k id info :=
    match k with
    | none => none
    | some e => if e.id = id then some { info with name := item NUL info.item.toNat e.names } else none

theorem shelf_documented : Documented shelf where
  count e k h := by
    unfold shelf at h
    dsimp only at h
    split at h
    · assumption
    · cases h
  names e k h _ info i hi _ := by
    unfold shelf at h ⊢
    dsimp only at h ⊢
    split at h
    · rename_i hroom
      rw [if_pos hroom]
      dsimp only
      rw [if_pos rfl, BitVec.toNat_ofNat, Nat.mod_eq_of_lt (Nat.lt_trans hi e.items.isLt)]
    · cases h

theorem mic_strings : Strings mic_names := ⟨by decide, by decide⟩

end Salsa.Ctl.UserElems
