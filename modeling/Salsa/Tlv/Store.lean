import Salsa.Tlv.Info
import Salsa.Lib.Run
import Mathlib.Logic.Function.Basic

/-!
# The TLV data of controls

The calls of `control.c` that write TLV data, next to the one that reads it. The kernel keeps the data of a program's
own control, and what is read is what was written last.
-/

namespace Salsa.Tlv.Store

open CInt Ctl Run

/-! ## The card -/

/-- The data of a control. -/
structure Block where
  bytes : Nat
  word : Nat → BitVec 32

/-- The first bytes of a program's words. -/
def Block.of (bytes : Nat) (tlv : Words) : Block := ⟨bytes, (memcpy ⟨tlv.size, fun _ => 0#32⟩ tlv bytes).word⟩

/-- The second word is the length of what follows it. -/
def Block.Whole (b : Block) : Prop := b.bytes = (b.word 1).toNat + 8

/-- What programs read into: an array with room for `tlv_size` bytes. -/
structure Buffer where
  words : Words
  tlv_size : BitVec 32
  room : tlv_size.toNat ≤ 4 * words.size

/-- What programs write: an array with the bytes that its second word tells. -/
structure Sent where
  words : Words
  whole : 2 ≤ words.size ∧ (words.word 1).toNat + 8 ≤ 4 * words.size

/-- A card with states `κ`. Its ioctls return an errno, 0 for success, and take the length of the data. -/
structure Card (κ : Type) where
  protocol : Int
  elem_info : κ → SndCtlElemId → Nat × SndCtlElemInfo
  tlv_read : κ → BitVec 32 → BitVec 32 → Words → Nat × Words
  tlv_write : BitVec 32 → BitVec 32 → Words → κ → Nat × κ
  tlv_command : BitVec 32 → BitVec 32 → Words → κ → Nat × κ

def ENOSPC : Nat := 28

/-- What is known of a control that a program has added. Its elements `elems` share the data. The kernel keeps what it
takes for them, of which there is a header at least, and gives it to those with room for it. -/
structure Documented {κ : Type} (c : Card κ) (elems : List (BitVec 32)) (content : κ → Option Block) : Prop where
  read : ∀ numid ∈ elems, ∀ length buf k, c.tlv_read k numid length buf =
    match content k with
    | none => (6, buf)
    | some b => if length.toNat < b.bytes then (ENOSPC, buf) else (0, memcpy buf ⟨buf.size, b.word⟩ b.bytes)
  taken : ∀ numid ∈ elems, ∀ length tlv k, (c.tlv_write numid length tlv k).1 = 0 →
    8 ≤ length.toNat ∧ content (c.tlv_write numid length tlv k).2 = some (.of length.toNat tlv)
  refused : ∀ numid ∈ elems, ∀ length tlv k, (c.tlv_write numid length tlv k).1 ≠ 0 →
    content (c.tlv_write numid length tlv k).2 = content k
  elsewhere : ∀ numid ∉ elems, ∀ length tlv k, content (c.tlv_write numid length tlv k).2 = content k
  command : ∀ numid length tlv k, content (c.tlv_command numid length tlv k).2 = content k

/-! ## The source -/

section Source

variable {κ : Type} (c : Card κ)

/-- The card as the functions that read see it. -/
def Card.ctl (k : κ) (tlv_size : BitVec 32) : SndCtl where
  protocol := c.protocol
  elem_info := c.elem_info k
  tlv_read numid xtlv := c.tlv_read k numid tlv_size xtlv

/-- `hw_elem_tlv` with an ioctl that gives nothing back. -/
def hw_elem_tlv (ioctl : BitVec 32 → BitVec 32 → Words → κ → Nat × κ) (alloc : Bool) (numid : BitVec 32) (tlv : Words)
    (tlv_size : BitVec 32) (k : κ) : Int × κ :=
  if c.protocol < SNDRV_PROTOCOL_VERSION 2 0 4 then (- ENXIO, k)
  else if ¬ alloc then (-ENOMEM, k)
  else
    let r := ioctl numid tlv_size tlv k
    if r.1 ≠ 0 then (-(r.1 : Int), r.2) else (0, r.2)

def snd_ctl_tlv_do (ioctl : BitVec 32 → BitVec 32 → Words → κ → Nat × κ) (alloc : Bool) (id : SndCtlElemId)
    (tlv : Words) (tlv_size : BitVec 32) (k : κ) : Int × κ :=
  if id.numid = 0#32 then
    let (err, info) := snd_ctl_elem_info (c.ctl k tlv_size) id
    if err < 0 then (err, k)
    else if info.id.numid = 0#32 then (-ENOENT, k)
    else hw_elem_tlv c ioctl alloc info.id.numid tlv tlv_size k
  else hw_elem_tlv c ioctl alloc id.numid tlv tlv_size k

/-- `tlv[1] + 2 * sizeof(unsigned int)`, cut to the `unsigned int` that it is passed as. -/
def Sent.tlv_size (tlv : Sent) : BitVec 32 := BitVec.ofNat 32 ((tlv.words.word 1).toNat + 8)

def snd_ctl_elem_tlv_write (alloc : Bool) (id : SndCtlElemId) (tlv : Sent) (k : κ) : Int × κ :=
  snd_ctl_tlv_do c c.tlv_write alloc id tlv.words tlv.tlv_size k

def snd_ctl_elem_tlv_command (alloc : Bool) (id : SndCtlElemId) (tlv : Sent) (k : κ) : Int × κ :=
  snd_ctl_tlv_do c c.tlv_command alloc id tlv.words tlv.tlv_size k

theorem ctl_elem_info (k : κ) (tlv_size : BitVec 32) (id : SndCtlElemId) :
    snd_ctl_elem_info (c.ctl k tlv_size) id = (-((c.elem_info k id).1 : Int), (c.elem_info k id).2) := rfl

theorem ctl_protocol (k : κ) (tlv_size : BitVec 32) : (c.ctl k tlv_size).protocol = c.protocol := rfl

theorem ctl_tlv_read (k : κ) (tlv_size numid : BitVec 32) (xtlv : Words) :
    (c.ctl k tlv_size).tlv_read numid xtlv = c.tlv_read k numid tlv_size xtlv := rfl

end Source

/-! ## Runs -/

section Runs

variable {κ : Type} (c : Card κ) (elems : List (BitVec 32)) (content : κ → Option Block)

/-- Which element is meant, by its number or else as the kernel tells it. -/
def target (k : κ) (id : SndCtlElemId) : Option (BitVec 32) :=
  if id.numid ≠ 0#32 then some id.numid
  else if (c.elem_info k id).1 = 0 ∧ (c.elem_info k id).2.id.numid ≠ 0#32 then some (c.elem_info k id).2.id.numid
  else none

/-- The calls of all programs on the card, and what else happens to it. -/
inductive Act (κ : Type)
  | write (alloc : Bool) (id : SndCtlElemId) (tlv : Sent)
  | command (alloc : Bool) (id : SndCtlElemId) (tlv : Sent)
  | other (k : κ)

def next (k : κ) : Act κ → κ
  | .write alloc id tlv => (snd_ctl_elem_tlv_write c alloc id tlv k).2
  | .command alloc id tlv => (snd_ctl_elem_tlv_command c alloc id tlv k).2
  | .other k => k

/-- The data after a call, from that before it: what a write to one of the elements that returned 0 was given. -/
def latest (k : κ) (b : Option Block) : Act κ → Option Block
  | .write alloc id tlv =>
    if target c k id ∈ elems.map some ∧ (snd_ctl_elem_tlv_write c alloc id tlv k).1 = 0 then
      some (.of tlv.tlv_size.toNat tlv.words)
    else b
  | _ => b

/-- The card goes on, and what was written last goes with it. -/
def follow (s : κ × Option Block) (a : Act κ) : Option (κ × Option Block) :=
  some (next c s.1 a, latest c elems s.1 s.2 a)

/-- Nothing but the calls changes the data. -/
def Quiet (s : κ × Option Block) : Act κ → Prop
  | .other k => content k = content s.1
  | _ => True

/-- What reading gives where the data is `b`. Data of the type -1 is taken for none. -/
def read_back (buf : Buffer) : Option Block → Int × Words
  | none => (- ENXIO, clear_tlv buf.words)
  | some b =>
    if buf.tlv_size.toNat < b.bytes then (-(ENOSPC : Int), clear_tlv buf.words)
    else
      let tlv := memcpy buf.words ⟨buf.words.size, b.word⟩ b.bytes
      if b.word 0 = -1#32 then (- ENXIO, tlv) else (0, tlv)

end Runs

/-! ## Copies of copies -/

theorem mix_again (dst mid src mask : BitVec 32) :
    ((src &&& mask ||| mid &&& ~~~mask) &&& mask) ||| (dst &&& ~~~mask) = (src &&& mask) ||| (dst &&& ~~~mask) := by
  apply BitVec.eq_of_getLsbD_eq
  intro i hi
  simp only [BitVec.getLsbD_or, BitVec.getLsbD_and, BitVec.getLsbD_not, hi]
  cases mask.getLsbD i <;> simp

theorem memcpy_again (dst mid src : Words) (size n : Nat) :
    memcpy dst ⟨size, (memcpy mid src n).word⟩ n = memcpy dst src n := by
  unfold memcpy
  congr 1
  funext i
  dsimp only
  split
  · rfl
  · exact mix_again _ _ _ _

theorem memcpy_word (dst src : Words) (n i : Nat) (h : 4 * i + 4 ≤ n) : (memcpy dst src n).word i = src.word i := by
  unfold memcpy
  exact if_pos h

/-- The header that is cleared is written over. -/
theorem memcpy_cleared (tlv src : Words) (n : Nat) (h : 8 ≤ n) : memcpy (clear_tlv tlv) src n = memcpy tlv src n := by
  unfold memcpy clear_tlv
  congr 1
  funext i
  dsimp only
  split
  · rfl
  · rw [if_neg (by omega), if_neg (by omega)]

theorem of_word (bytes : Nat) (tlv : Words) (i : Nat) (h : 4 * i + 4 ≤ bytes) :
    (Block.of bytes tlv).word i = tlv.word i := memcpy_word _ tlv bytes i h

/-- A length that was cut leaves no header, so what the kernel takes is whole. -/
theorem sent_whole (tlv : Sent) (h : 8 ≤ tlv.tlv_size.toNat) : (Block.of tlv.tlv_size.toNat tlv.words).Whole := by
  unfold Block.Whole
  rw [of_word _ _ 1 h]
  have hword := (tlv.words.word 1).isLt
  unfold Sent.tlv_size at h ⊢
  rw [BitVec.toNat_ofNat] at h ⊢
  unfold Block.of
  dsimp only
  omega

/-! ## One call -/

section Calls

variable {κ : Type} {c : Card κ} {elems : List (BitVec 32)} {content : κ → Option Block}
  (hc : Documented c elems content) (ioctl : BitVec 32 → BitVec 32 → Words → κ → Nat × κ) (alloc : Bool)
  (id : SndCtlElemId) (k : κ)

theorem do_target (tlv : Words) (tlv_size numid : BitVec 32) (h : target c k id = some numid) :
    snd_ctl_tlv_do c ioctl alloc id tlv tlv_size k = hw_elem_tlv c ioctl alloc numid tlv tlv_size k := by
  unfold target at h
  unfold snd_ctl_tlv_do
  split at h
  · rename_i hid
    rw [if_neg hid, Option.some.inj h]
  · rename_i hid
    split at h
    · rename_i hinfo
      rw [if_pos (not_not.mp hid), ctl_elem_info, hinfo.1]
      dsimp only
      rw [if_neg (by decide), if_neg hinfo.2, Option.some.inj h]
    · cases h

theorem do_no_target (tlv : Words) (tlv_size : BitVec 32) (h : target c k id = none) :
    (snd_ctl_tlv_do c ioctl alloc id tlv tlv_size k).1 < 0 ∧
      (snd_ctl_tlv_do c ioctl alloc id tlv tlv_size k).2 = k := by
  unfold target at h
  split at h
  · cases h
  · rename_i hid
    split at h
    · cases h
    · rename_i hinfo
      unfold snd_ctl_tlv_do
      rw [if_pos (not_not.mp hid), ctl_elem_info]
      dsimp only
      split
      · exact ⟨‹_›, rfl⟩
      · rw [if_pos (by_contra fun hne => hinfo ⟨by omega, hne⟩)]
        exact ⟨(by decide : -ENOENT < 0), rfl⟩

/-- The card is as it was, or what the ioctl made of it. -/
theorem hw_elem_tlv_cases (numid : BitVec 32) (tlv : Words) (tlv_size : BitVec 32) :
    ((hw_elem_tlv c ioctl alloc numid tlv tlv_size k).1 < 0 ∧
        (hw_elem_tlv c ioctl alloc numid tlv tlv_size k).2 = k) ∨
      ((hw_elem_tlv c ioctl alloc numid tlv tlv_size k).2 = (ioctl numid tlv_size tlv k).2 ∧
        ((hw_elem_tlv c ioctl alloc numid tlv tlv_size k).1 = 0 ↔ (ioctl numid tlv_size tlv k).1 = 0)) := by
  unfold hw_elem_tlv
  split
  · exact .inl ⟨(by decide : - ENXIO < 0), rfl⟩
  split
  · exact .inl ⟨(by decide : -ENOMEM < 0), rfl⟩
  · right
    dsimp only
    split
    · rename_i herrno
      exact ⟨rfl, iff_of_false (by omega) herrno⟩
    · rename_i herrno
      exact ⟨rfl, iff_of_true rfl (not_not.mp herrno)⟩

include hc

/-- A write that returns 0 has told the control something new if it was to one of its elements. -/
theorem write_taken (tlv : Sent) (h : (snd_ctl_elem_tlv_write c alloc id tlv k).1 = 0) :
    ∃ numid, target c k id = some numid ∧
      (numid ∈ elems → 8 ≤ tlv.tlv_size.toNat ∧
        content (snd_ctl_elem_tlv_write c alloc id tlv k).2 = some (.of tlv.tlv_size.toNat tlv.words)) ∧
      (numid ∉ elems → content (snd_ctl_elem_tlv_write c alloc id tlv k).2 = content k) := by
  unfold snd_ctl_elem_tlv_write at h ⊢
  cases htarget : target c k id with
  | none =>
    have hneg := (do_no_target c.tlv_write alloc id k tlv.words tlv.tlv_size htarget).1
    omega
  | some numid =>
    refine ⟨numid, rfl, ?_⟩
    rw [do_target _ _ _ _ _ _ numid htarget] at h ⊢
    obtain ⟨hneg, -⟩ | ⟨hk, hzero⟩ := hw_elem_tlv_cases (c := c) c.tlv_write alloc k numid tlv.words tlv.tlv_size
    · omega
    · rw [hk]
      exact ⟨fun hmem => hc.taken numid hmem tlv.tlv_size tlv.words k (hzero.mp h),
        fun hout => hc.elsewhere numid hout tlv.tlv_size tlv.words k⟩

theorem write_refused (tlv : Sent) (h : (snd_ctl_elem_tlv_write c alloc id tlv k).1 ≠ 0) :
    content (snd_ctl_elem_tlv_write c alloc id tlv k).2 = content k := by
  unfold snd_ctl_elem_tlv_write at h ⊢
  cases htarget : target c k id with
  | none => rw [(do_no_target c.tlv_write alloc id k tlv.words tlv.tlv_size htarget).2]
  | some numid =>
    rw [do_target _ _ _ _ _ _ numid htarget] at h ⊢
    obtain ⟨-, hk⟩ | ⟨hk, hzero⟩ := hw_elem_tlv_cases (c := c) c.tlv_write alloc k numid tlv.words tlv.tlv_size
    · rw [hk]
    · rw [hk]
      by_cases hmem : numid ∈ elems
      · exact hc.refused numid hmem tlv.tlv_size tlv.words k (mt hzero.mpr h)
      · exact hc.elsewhere numid hmem tlv.tlv_size tlv.words k

theorem command_content (tlv : Sent) : content (snd_ctl_elem_tlv_command c alloc id tlv k).2 = content k := by
  unfold snd_ctl_elem_tlv_command
  cases htarget : target c k id with
  | none => rw [(do_no_target c.tlv_command alloc id k tlv.words tlv.tlv_size htarget).2]
  | some numid =>
    rw [do_target _ _ _ _ _ _ numid htarget]
    obtain ⟨-, hk⟩ | ⟨hk, -⟩ := hw_elem_tlv_cases (c := c) c.tlv_command alloc k numid tlv.words tlv.tlv_size
    · rw [hk]
    · rw [hk, hc.command]

end Calls

/-! ## What is read -/

section Reading

variable {κ : Type} {c : Card κ} {elems : List (BitVec 32)} {content : κ → Option Block}
  (hc : Documented c elems content) (hprotocol : SNDRV_PROTOCOL_VERSION 2 0 4 ≤ c.protocol) (id : SndCtlElemId)
  (numid : BitVec 32) (hnumid : numid ∈ elems) (k : κ) (htarget : target c k id = some numid)

include htarget in
theorem read_target (tlv : Words) (tlv_size : BitVec 32) :
    Tlv.snd_ctl_tlv_do (c.ctl k tlv_size) true id tlv tlv_size =
      Tlv.hw_elem_tlv (c.ctl k tlv_size) true numid tlv tlv_size := by
  unfold target at htarget
  unfold Tlv.snd_ctl_tlv_do
  split at htarget
  · rename_i hid
    rw [if_neg hid, Option.some.inj htarget]
  · rename_i hid
    split at htarget
    · rename_i hinfo
      rw [if_pos (not_not.mp hid), ctl_elem_info, hinfo.1]
      dsimp only
      rw [if_neg (by decide), if_neg hinfo.2, Option.some.inj htarget]
    · cases htarget

include hc hprotocol hnumid

/-- The check of the length passes, and the two copies are one. -/
theorem hw_read (tlv : Words) (tlv_size : BitVec 32) (hwhole : ∀ b, content k = some b → b.Whole) :
    Tlv.hw_elem_tlv (c.ctl k tlv_size) true numid tlv tlv_size =
      match content k with
      | none => (- ENXIO, tlv)
      | some b =>
        if tlv_size.toNat < b.bytes then (-(ENOSPC : Int), tlv) else (0, memcpy tlv ⟨tlv.size, b.word⟩ b.bytes) := by
  unfold Tlv.hw_elem_tlv
  rw [ctl_protocol, if_neg (Int.not_lt.mpr hprotocol), if_neg (not_not.mpr rfl), ctl_tlv_read, hc.read numid hnumid]
  cases hb : content k with
  | none => rfl
  | some b =>
    have hbytes := hwhole b hb
    unfold Block.Whole at hbytes
    dsimp only
    split
    · rfl
    · rename_i hfits
      have hone := memcpy_word tlv ⟨tlv.size, b.word⟩ b.bytes 1 (by omega)
      dsimp only at hone ⊢
      rw [if_neg (not_not.mpr rfl), hone, if_neg (by omega), ← hbytes]
      exact congrArg _ (memcpy_again tlv tlv ⟨tlv.size, b.word⟩ _ b.bytes)

include htarget

theorem read_content (buf : Buffer) (hsize : 8 ≤ buf.tlv_size.toNat)
    (hwhole : ∀ b, content k = some b → b.Whole) :
    snd_ctl_elem_tlv_read (c.ctl k buf.tlv_size) true id buf.words buf.tlv_size =
      read_back buf (content k) := by
  unfold snd_ctl_elem_tlv_read read_back
  rw [if_neg (by simpa [BitVec.lt_def] using hsize), read_target id numid k htarget,
    hw_read hc hprotocol numid hnumid k _ _ hwhole]
  cases hb : content k with
  | none => rfl
  | some b =>
    have hlen : 8 ≤ b.bytes := by
      have hbytes := hwhole b hb
      unfold Block.Whole at hbytes
      omega
    dsimp only
    split
    · rfl
    · have hzero := memcpy_word buf.words ⟨buf.words.size, b.word⟩ b.bytes 0 (by omega)
      have hcleared := memcpy_cleared buf.words ⟨buf.words.size, b.word⟩ b.bytes hlen
      dsimp only at hzero ⊢
      rw [clear_tlv] at hcleared ⊢
      rw [hcleared, hzero]
      simp

end Reading

/-! ## All along a run -/

section Kept

variable {κ : Type} {c : Card κ} {elems : List (BitVec 32)} {content : κ → Option Block}
  (hc : Documented c elems content)

/-- The card has the data that was written last, and it is whole. -/
structure Kept (content : κ → Option Block) (s : κ × Option Block) : Prop where
  content : content s.1 = s.2
  whole : ∀ b, s.2 = some b → b.Whole

include hc

theorem kept_step (s : κ × Option Block) (a : Act κ) (s' : κ × Option Block) (h : Kept content s)
    (hquiet : Quiet content s a) (hstep : follow c elems s a = some s') : Kept content s' := by
  obtain rfl := Option.some.inj hstep
  cases a with
  | write alloc id tlv =>
    unfold latest next
    dsimp only
    by_cases hok : (snd_ctl_elem_tlv_write c alloc id tlv s.1).1 = 0
    · obtain ⟨n, htarget, hown, hother⟩ := write_taken hc alloc id s.1 tlv hok
      by_cases hn : n ∈ elems
      · obtain ⟨hsize, hcontent⟩ := hown hn
        rw [if_pos ⟨htarget ▸ List.mem_map_of_mem hn, hok⟩]
        exact ⟨hcontent, fun b hb => Option.some.inj hb ▸ sent_whole tlv hsize⟩
      · rw [if_neg fun hboth => ?_]
        · exact ⟨(hother hn).trans h.content, h.whole⟩
        · obtain ⟨n', hn', htarget'⟩ := List.mem_map.mp hboth.1
          exact hn (Option.some.inj (htarget'.trans htarget) ▸ hn')
    · rw [if_neg fun hboth => hok hboth.2]
      exact ⟨(write_refused hc alloc id s.1 tlv hok).trans h.content, h.whole⟩
  | command alloc id tlv => exact ⟨(command_content hc alloc id s.1 tlv).trans h.content, h.whole⟩
  | other k =>
    have hsame : content k = content s.1 := hquiet
    exact ⟨hsame.trans h.content, h.whole⟩

end Kept

/-! ## A card with one control -/

/-- The elements of the control have the numbers 7 and 8, and any name is that of the first. -/
def pair : List (BitVec 32) := [7#32, 8#32]

def slot : Card (Option Block) where
  protocol := SNDRV_PROTOCOL_VERSION 2 0 7
  elem_info _ _ := (0, ⟨{ zeroed_id with numid := 7#32 }, 0#32, 0, 0⟩)
  tlv_read k numid length buf :=
    match if numid ∈ pair then k else none with
    | none => (6, buf)
    | some b => if length.toNat < b.bytes then (ENOSPC, buf) else (0, memcpy buf ⟨buf.size, b.word⟩ b.bytes)
  tlv_write numid length tlv k :=
    if numid ∈ pair ∧ 8 ≤ length.toNat then (0, some (.of length.toNat tlv)) else (22, k)
  tlv_command _ _ _ k := (6, k)

theorem slot_documented : Documented slot pair id where
  read numid hnumid length buf k := by
    unfold slot
    dsimp only
    rw [if_pos hnumid]
    rfl
  taken numid hnumid length tlv k h := by
    unfold slot at h ⊢
    dsimp only at h ⊢
    split at h
    · rename_i htaken
      rw [if_pos htaken]
      exact ⟨htaken.2, rfl⟩
    · cases h
  refused numid hnumid length tlv k h := by
    unfold slot at h ⊢
    dsimp only at h ⊢
    split at h
    · exact absurd rfl h
    · rw [if_neg ‹_›]
  elsewhere numid hnumid length tlv k := by
    unfold slot
    dsimp only
    rw [if_neg fun htaken => hnumid htaken.1]
  command _ _ _ _ := rfl

def scale : Sent := ⟨⟨4, fun i => one_dB_steps.getD i 0#32⟩, by decide⟩

def room : Buffer := ⟨⟨16, fun _ => 0#32⟩, 64#32, by decide⟩

end Salsa.Tlv.Store
