import Salsa.Pcm.Ring
import Salsa.Pcm.Copy
import Salsa.Lib.Fifo
import Mathlib.Data.List.GetD
import Mathlib.Tactic.Ring

/-!
# Frames through the ring buffer

An application and the hardware at the two ends of a mapped buffer of interleaved frames. The application
works with `snd_pcm_mmap_writei` and `snd_pcm_mmap_readi`, or in the buffer itself between
`snd_pcm_mmap_begin` and `snd_pcm_mmap_commit`; the hardware moves at any time, and its pointer in the
status page lags behind.
-/

namespace Salsa.Pcm.Stream

open CInt Samples Fifo

/-! ## The source -/

/-- What `_snd_pcm_hw_params` leaves of the buffer: `running_areas[0]` and `frame_bits`. -/
structure Buffer where
  area : SndPcmChannelArea
  frame_bits : BitVec 32

def snd_pcm_frames_to_bytes (frame_bits : BitVec 32) (frames : BitVec 64) : C (BitVec 64) := do
  let bits ← long (frames.toInt * frame_bits.toNat)
  return BitVec.ofInt 64 (bits.tdiv 8)

/-- `buffer` is the address of the application's own memory. -/
def snd_pcm_mmap_writei (m : Mem) (b : Buffer) (pcm : SndPcm) (buffer : Nat) (size : Uframes) :
    C (Uframes × SndPcm × Mem) :=
  match snd_pcm_mmap_begin pcm size with
  | none => .error .divide
  | some (offset, size) => do
    let bytes ← snd_pcm_frames_to_bytes b.frame_bits size
    let m ← memcpy m (snd_pcm_channel_area_addr b.area offset) buffer bytes.toNat
    let (ret, pcm) := snd_pcm_mmap_commit pcm offset size
    return (ret, pcm, m)

def snd_pcm_mmap_readi (m : Mem) (b : Buffer) (pcm : SndPcm) (buffer : Nat) (size : Uframes) :
    C (Uframes × SndPcm × Mem) :=
  match snd_pcm_mmap_begin pcm size with
  | none => .error .divide
  | some (offset, size) => do
    let bytes ← snd_pcm_frames_to_bytes b.frame_bits size
    let m ← memcpy m buffer (snd_pcm_channel_area_addr b.area offset) bytes.toNat
    let (ret, pcm) := snd_pcm_mmap_commit pcm offset size
    return (ret, pcm, m)

/-- What the kernel answers to an ioctl that moves the application's pointer: an errno and the frames by
which it moved. -/
structure Moved where
  errno : Nat
  frames : Uframes

/-- The ioctl, with `appl_ptr` for what the kernel makes of the pointer in the control page. -/
def move_appl_ptr (k : Moved) (pcm : SndPcm) (frames appl_ptr : Uframes) : Int × SndPcm :=
  if frames = 0#64 then (0, pcm)
  else if k.errno ≠ 0 then (-(k.errno : Int), pcm)
  else (k.frames.toInt, { pcm with appl_ptr })

def snd_pcm_rewind (k : Moved) (pcm : SndPcm) (frames : Uframes) : Int × SndPcm :=
  move_appl_ptr k pcm frames (pcm.appl_ptr - k.frames)

def snd_pcm_forward (k : Moved) (pcm : SndPcm) (frames : Uframes) : Int × SndPcm :=
  move_appl_ptr k pcm frames (pcm.appl_ptr + k.frames)

/-! ## The two ends -/

abbrev Frame := List (BitVec 8)

def Buffer.frame_bytes (b : Buffer) : Nat := b.frame_bits.toNat / 8

def Buffer.start (b : Buffer) : Nat := b.area.addr + b.area.first.toNat / 8

def bytes_at (m : Mem) (a k : Nat) : Frame := (List.range k).map fun j => m (a + j)

/-- The frame in a slot of the buffer. -/
def Buffer.slot (b : Buffer) (m : Mem) (s : Nat) : Frame := bytes_at m (b.start + s * b.frame_bytes) b.frame_bytes

/-- The frames in the application's memory. -/
def Buffer.frames_at (b : Buffer) (m : Mem) (buffer k : Nat) : List Frame :=
  (List.range k).map fun i => bytes_at m (buffer + i * b.frame_bytes) b.frame_bytes

/-- The hardware stores captured frames, from the total `t` on. -/
def Buffer.record (b : Buffer) (n : Nat) : Nat → List Frame → Mem → Mem
  | _, [], m => m
  | t, frame :: frames, m =>
    b.record n (t + 1) frames
      (memcpy_const m (b.start + t % n * b.frame_bytes) (fun j => frame.getD j 0#8) b.frame_bytes)

/-- A stream with its memory, and the frames that went in and came out. For playback the application puts
in and the hardware takes out, for capture the other way. -/
structure State where
  ring : Ring
  m : Mem
  put : List Frame
  taken : List Frame

inductive Act where
  | begin (frames : Uframes)
  | commit (offset frames : Uframes)
  | writei (buffer : Nat) (size : Uframes)
  | readi (buffer : Nat) (size : Uframes)
  | rewind (k : Moved) (frames : Uframes)
  | forward (k : Moved) (frames : Uframes)
  /-- The application writes to its memory, or to the frames it was granted. -/
  | store (a : Nat) (v : BitVec 8)
  /-- The hardware plays as many frames, or captures these. -/
  | play (frames : Nat)
  | capture (frames : List Frame)
  /-- The kernel brings `hw_ptr` to where the hardware is. -/
  | update

/-- After a rewind or a forward the application asks for its next chunk. -/
def rewound (s : Ring) (k : Moved) (frames : Uframes) : Ring :=
  let (ret, pcm) := snd_pcm_rewind k s.pcm frames
  { s with pcm, committed := s.committed - ret.toNat, granted := 0 }

def forwarded (s : Ring) (k : Moved) (frames : Uframes) : Ring :=
  let (ret, pcm) := snd_pcm_forward k s.pcm frames
  { s with pcm, committed := s.committed + ret.toNat, granted := 0 }

section Step

variable (b : Buffer)

def State.size (s : State) : Nat := s.ring.pcm.buffer_size.toNat

/-- What the hardware has moved, by the frames at its end. -/
def State.position (s : State) : Nat :=
  match s.ring.pcm.stream with
  | .playback => s.taken.length
  | .capture => s.put.length

/-- The application's pointer went on by frames that lie in the buffer. -/
def State.committed (s : State) (ring : Ring) (m : Mem) (k : Nat) : State :=
  let frames := window s.size (b.slot m) s.ring.committed k
  match s.ring.pcm.stream with
  | .playback => { s with ring, m, put := s.put ++ frames }
  | .capture => { s with ring, m, taken := s.taken ++ frames }

def step (s : State) : Act → Option State
  | .begin frames => (Pcm.step s.ring (.begin frames)).map fun ring => { s with ring }
  | .commit offset frames =>
    (Pcm.step s.ring (.commit offset frames)).map fun ring => s.committed b ring s.m frames.toNat
  | .writei buffer size =>
    match snd_pcm_mmap_writei s.m b s.ring.pcm buffer size with
    | .error _ => none
    | .ok (ret, pcm, m) =>
      some
        { ring := { s.ring with pcm, committed := s.ring.committed + ret.toNat, granted := 0 }
          m, taken := s.taken
          put := s.put ++ b.frames_at s.m buffer ret.toNat }
  | .readi buffer size =>
    match snd_pcm_mmap_readi s.m b s.ring.pcm buffer size with
    | .error _ => none
    | .ok (ret, pcm, m) =>
      some
        { ring := { s.ring with pcm, committed := s.ring.committed + ret.toNat, granted := 0 }
          m, put := s.put
          taken := s.taken ++ b.frames_at m buffer ret.toNat }
  | .rewind k frames =>
    let ring := rewound s.ring k frames
    match s.ring.pcm.stream with
    | .playback => some { s with ring, put := s.put.take ring.committed }
    | .capture => some { s with ring, taken := s.taken.take ring.committed }
  | .forward k frames =>
    let ring := forwarded s.ring k frames
    some (s.committed b ring s.m (ring.committed - s.ring.committed))
  | .store a v => some { s with m := s.m.set a v }
  | .play frames =>
    some { s with taken := s.taken ++ window s.size (b.slot s.m) s.taken.length frames }
  | .capture frames =>
    some { s with m := b.record s.size s.put.length frames s.m, put := s.put ++ frames }
  | .update => (Pcm.step s.ring (.advance (s.position - s.ring.moved))).map fun ring => { s with ring }

end Step

/-! ## The layout -/

/-- Whole bytes to a frame, one frame after the other, and no bit offset that wraps. -/
structure Interleaved (b : Buffer) (n : Nat) : Prop where
  whole : b.frame_bits.toNat % 8 = 0
  pos : 0 < b.frame_bits.toNat
  first : b.area.first.toNat % 8 = 0
  step : b.area.step = b.frame_bits
  below : b.area.first.toNat + b.frame_bits.toNat * n ≤ 4294967296

section Layout

variable {b : Buffer} {n : Nat} (hb : Interleaved b n)

include hb

theorem frame_bits_eq : b.frame_bits.toNat = 8 * b.frame_bytes := by
  have hwhole := hb.whole
  unfold Buffer.frame_bytes
  omega

theorem frame_bytes_pos : 0 < b.frame_bytes := by
  have hpos := hb.pos
  have hbits := frame_bits_eq hb
  omega

theorem frames_below : n * b.frame_bytes ≤ 536870912 := by
  have hbelow := hb.below
  rw [frame_bits_eq hb, Nat.mul_assoc, Nat.mul_comm b.frame_bytes] at hbelow
  omega

theorem frames_le : n ≤ 536870912 := (Nat.le_mul_of_pos_right n (frame_bytes_pos hb)).trans (frames_below hb)

theorem area_addr_eq (offset : Uframes) (h : offset.toNat < n) :
    snd_pcm_channel_area_addr b.area offset = b.start + offset.toNat * b.frame_bytes := by
  have hfirst := hb.first
  have hbelow := hb.below
  have hbits := frame_bits_eq hb
  have hpos := hb.pos
  have hmul : b.frame_bits.toNat * offset.toNat < b.frame_bits.toNat * n := Nat.mul_lt_mul_of_pos_left h hpos
  have hbit : b.area.bit offset.toNat = b.area.first.toNat + b.frame_bits.toNat * offset.toNat := by
    rw [SndPcmChannelArea.bit, hb.step]
  have hadd := area_addr_add b.area offset
  rw [(wrapped_eq_zero b.area offset.toNat).mpr (by omega), hbit, hbits, Nat.mul_assoc, Nat.mul_comm b.frame_bytes]
    at hadd
  unfold Buffer.start
  omega

theorem frames_to_bytes_eq (frames : Uframes) (h : frames.toNat ≤ n) :
    ∃ bytes, snd_pcm_frames_to_bytes b.frame_bits frames = .ok bytes ∧ bytes.toNat = frames.toNat * b.frame_bytes := by
  have hle := frames_le hb
  have hbelow := frames_below hb
  have hmul : frames.toNat * b.frame_bytes ≤ n * b.frame_bytes := Nat.mul_le_mul_right _ h
  have hbits : frames.toInt * b.frame_bits.toNat = 8 * (frames.toNat * b.frame_bytes : Nat) := by
    rw [BitVec.toInt_eq_toNat_of_lt (by omega), frame_bits_eq hb]
    push_cast
    ring
  refine ⟨BitVec.ofNat 64 (frames.toNat * b.frame_bytes), ?_, ?_⟩
  · unfold snd_pcm_frames_to_bytes
    rw [hbits, IsLong.ok ⟨by omega, by omega⟩, ok_bind, Int.mul_tdiv_cancel_left _ (by decide), BitVec.ofInt_natCast]
    rfl
  · rw [BitVec.toNat_ofNat, Nat.mod_eq_of_lt (by omega)]

end Layout

/-! ## Memory -/

theorem bytes_at_congr (m m' : Mem) (a a' k : Nat) (h : ∀ j < k, m (a + j) = m' (a' + j)) :
    bytes_at m a k = bytes_at m' a' k := by
  apply List.map_congr_left
  intro j hj
  exact h j (List.mem_range.mp hj)

theorem byte_lt (s s' fb j : Nat) (hs : s < s') (hj : j < fb) : s * fb + j < s' * fb := by
  have hnext : (s + 1) * fb ≤ s' * fb := Nat.mul_le_mul_right fb hs
  rw [Nat.add_mul, Nat.one_mul] at hnext
  omega

theorem memcpy_eq (m m' : Mem) (dst src k : Nat) (h : memcpy m dst src k = .ok m') (a : Nat) :
    m' a = if dst ≤ a ∧ a < dst + k then m (src + (a - dst)) else m a := by
  unfold memcpy at h
  split at h
  · cases h
  · cases h
    rfl

section Memory

variable (b : Buffer)

/-- The bytes lie outside of the buffer. -/
def Buffer.Outside (n a k : Nat) : Prop := a + k ≤ b.start ∨ b.start + n * b.frame_bytes ≤ a

theorem slot_congr (n : Nat) (m m' : Mem) (s : Nat) (hs : s < n)
    (h : ∀ a, b.start ≤ a → a < b.start + n * b.frame_bytes → m' a = m a) : b.slot m' s = b.slot m s := by
  apply bytes_at_congr
  intro j hj
  have hlt := byte_lt s n b.frame_bytes j hs hj
  exact h _ (by omega) (by omega)

/-- A chunk that is copied into the buffer fills its slots and no others. -/
theorem slot_of_copied (m m' : Mem) (offset buffer k : Nat)
    (h : memcpy m (b.start + offset * b.frame_bytes) buffer (k * b.frame_bytes) = .ok m') :
    (∀ i < k, b.slot m' (offset + i) = bytes_at m (buffer + i * b.frame_bytes) b.frame_bytes) ∧
      ∀ s, s < offset ∨ offset + k ≤ s → b.slot m' s = b.slot m s := by
  have heq := memcpy_eq m m' _ _ _ h
  constructor
  · intro i hi
    apply bytes_at_congr
    intro j hj
    have hlt := byte_lt i k b.frame_bytes j hi hj
    rw [heq, Nat.add_mul, if_pos (by omega)]
    congr 1
    omega
  · intro s hs
    apply bytes_at_congr
    intro j hj
    rw [heq, if_neg]
    rintro ⟨hlow, hhigh⟩
    rcases hs with hs | hs
    · have hlt := byte_lt s offset b.frame_bytes j hs hj
      omega
    · have hle := Nat.mul_le_mul_right b.frame_bytes hs
      rw [Nat.add_mul] at hle
      omega

/-- A chunk that is copied out of the buffer. -/
theorem frames_at_of_copied (n : Nat) (m m' : Mem) (offset buffer k : Nat)
    (h : memcpy m buffer (b.start + offset * b.frame_bytes) (k * b.frame_bytes) = .ok m')
    (houtside : b.Outside n buffer (k * b.frame_bytes)) :
    b.frames_at m' buffer k = ((List.range k).map fun i => b.slot m (offset + i)) ∧
      ∀ s < n, b.slot m' s = b.slot m s := by
  have heq := memcpy_eq m m' _ _ _ h
  constructor
  · apply List.map_congr_left
    intro i hi
    apply bytes_at_congr
    intro j hj
    have hlt := byte_lt i k b.frame_bytes j (List.mem_range.mp hi) hj
    rw [heq, if_pos (by omega), Nat.add_mul]
    congr 1
    omega
  · intro s hs
    apply slot_congr b n m m' s hs
    intro a hlow hhigh
    rw [heq, if_neg]
    rintro ⟨hbuffer, hend⟩
    rcases houtside with houtside | houtside <;> omega

theorem slot_record (n t u : Nat) (frames : List Frame) (m : Mem)
    (hu : ∀ i < frames.length, u % n ≠ (t + i) % n) : b.slot (b.record n t frames m) (u % n) = b.slot m (u % n) := by
  induction frames generalizing t m with
  | nil => rfl
  | cons frame frames ih =>
    have hrest : ∀ i < frames.length, u % n ≠ (t + 1 + i) % n := by
      intro i hi
      rw [Nat.add_assoc, Nat.add_comm 1]
      exact hu (i + 1) (by simp; omega)
    unfold Buffer.record
    rw [ih (t + 1) _ hrest]
    apply bytes_at_congr
    intro j hj
    have hne := hu 0 (by simp)
    rw [Nat.add_zero] at hne
    unfold memcpy_const
    rw [if_neg]
    rintro ⟨hlow, hhigh⟩
    rcases Nat.lt_or_gt_of_ne hne with hlt | hlt
    · have := byte_lt (u % n) (t % n) b.frame_bytes j hlt hj
      omega
    · have := Nat.mul_le_mul_right b.frame_bytes hlt
      rw [Nat.succ_mul] at this
      omega

/-- The captured frames fill the slots of their totals. -/
theorem slot_recorded (n t : Nat) (frames : List Frame) (m : Mem) (hn : frames.length ≤ n)
    (hlength : ∀ frame ∈ frames, frame.length = b.frame_bytes) (i : Nat) (hi : i < frames.length) :
    b.slot (b.record n t frames m) ((t + i) % n) = frames[i] := by
  induction frames generalizing t m i with
  | nil => cases hi
  | cons frame frames ih =>
    rw [List.length_cons] at hn hi
    unfold Buffer.record
    cases i with
    | succ i =>
      have hnext := ih (t + 1) (memcpy_const m (b.start + t % n * b.frame_bytes) (fun j => frame.getD j 0#8)
        b.frame_bytes) (by omega) (fun f hf => hlength f (List.mem_cons_of_mem _ hf)) i (by omega)
      rwa [Nat.add_assoc, Nat.add_comm 1] at hnext
    | zero =>
      -- The frames after it go to other slots.
      simp only [Nat.add_zero, List.getElem_cons_zero]
      rw [slot_record b n (t + 1) t frames _]
      · have hframe := hlength frame List.mem_cons_self
        apply List.ext_getElem
        · simp [Buffer.slot, bytes_at, hframe]
        · intro j hj hj'
          simp only [Buffer.slot, bytes_at, List.length_map, List.length_range] at hj
          simp only [Buffer.slot, bytes_at, List.getElem_map, List.getElem_range, memcpy_const]
          rw [if_pos (by omega), Nat.add_sub_cancel_left, List.getD_eq_getElem _ _ hj']
      · intro k hk
        rw [Nat.add_assoc]
        exact slot_ne t t (t + (1 + k)) le_rfl (by omega) (by omega)

end Memory

/-! ## The two transfers -/

theorem begin_le (pcm : SndPcm) (frames offset granted : Uframes)
    (h : snd_pcm_mmap_begin pcm frames = some (offset, granted)) : granted.toNat ≤ frames.toNat := by
  unfold snd_pcm_mmap_begin at h
  split at h
  · cases h
  · simp only [Option.some.injEq, Prod.mk.injEq] at h
    obtain ⟨-, rfl⟩ := h
    split_ifs <;> simp only [BitVec.lt_def, gt_iff_lt, not_lt] at * <;> omega

/-- What a transfer moves: a chunk that fits into the buffer, and that is free or filled. -/
structure Chunk (s : Ring) (size ret : Uframes) : Prop where
  asked : ret.toNat ≤ size.toNat
  reached : s.committed + ret.toNat ≤ s.reach
  room : s.committed % s.pcm.buffer_size.toNat + ret.toNat ≤ s.pcm.buffer_size.toNat

section Transfer

variable (b : Buffer) (s : Ring) (h : Pcm.Inv s) (hb : Interleaved b s.pcm.buffer_size.toNat) (m : Mem) (buffer : Nat)
  (size : Uframes) (houtside : b.Outside s.pcm.buffer_size.toNat buffer (size.toNat * b.frame_bytes))

include h hb houtside

/-- The addresses of a chunk, with the bytes that are copied. -/
theorem begin_chunk : ∃ offset ret bytes, snd_pcm_mmap_begin s.pcm size = some (offset, ret) ∧ Chunk s size ret ∧
    snd_pcm_frames_to_bytes b.frame_bits ret = .ok bytes ∧ bytes.toNat = ret.toNat * b.frame_bytes ∧
    snd_pcm_channel_area_addr b.area offset =
      b.start + s.committed % s.pcm.buffer_size.toNat * b.frame_bytes ∧
    ∀ i < ret.toNat * b.frame_bytes, ∀ j < ret.toNat * b.frame_bytes,
      b.start + s.committed % s.pcm.buffer_size.toNat * b.frame_bytes + i ≠ buffer + j := by
  obtain ⟨offset, ret, hbegin, hoffset, hroom, hreached⟩ := begin_spec s h size
  have hasked := begin_le _ _ _ _ hbegin
  have hmod := Nat.mod_lt s.committed h.size
  obtain ⟨bytes, hbytes, htoNat⟩ := frames_to_bytes_eq hb ret (by omega)
  have haddr := area_addr_eq hb offset (by omega)
  rw [hoffset] at haddr hroom
  refine ⟨offset, ret, bytes, hbegin, ⟨hasked, hreached, hroom⟩, hbytes, htoNat, haddr, ?_⟩
  intro i hi j hj
  have hend := Nat.mul_le_mul_right b.frame_bytes hroom
  have hwithin := Nat.mul_le_mul_right b.frame_bytes hasked
  rw [Nat.add_mul] at hend
  rcases houtside with houtside | houtside <;> omega

theorem writei_spec : ∃ ret m',
    snd_pcm_mmap_writei m b s.pcm buffer size = .ok (ret, { s.pcm with appl_ptr := s.pcm.appl_ptr + ret }, m') ∧
      Chunk s size ret ∧
      memcpy m (b.start + s.committed % s.pcm.buffer_size.toNat * b.frame_bytes) buffer (ret.toNat * b.frame_bytes) =
        .ok m' := by
  obtain ⟨offset, ret, bytes, hbegin, hchunk, hbytes, htoNat, haddr, hapart⟩ :=
    begin_chunk b s h hb buffer size houtside
  obtain ⟨m', hcopy⟩ := memcpy_ok m _ _ _ hapart
  refine ⟨ret, m', ?_, hchunk, hcopy⟩
  have hcommit := snd_pcm_mmap_commit_of_unset s.pcm offset ret h.unset
  unfold snd_pcm_mmap_writei
  rw [hbegin]
  dsimp only
  rw [hbytes, ok_bind, htoNat, haddr, hcopy, ok_bind, hcommit]
  rfl

theorem readi_spec : ∃ ret m',
    snd_pcm_mmap_readi m b s.pcm buffer size = .ok (ret, { s.pcm with appl_ptr := s.pcm.appl_ptr + ret }, m') ∧
      Chunk s size ret ∧
      memcpy m buffer (b.start + s.committed % s.pcm.buffer_size.toNat * b.frame_bytes) (ret.toNat * b.frame_bytes) =
        .ok m' := by
  obtain ⟨offset, ret, bytes, hbegin, hchunk, hbytes, htoNat, haddr, hapart⟩ :=
    begin_chunk b s h hb buffer size houtside
  obtain ⟨m', hcopy⟩ := memcpy_ok m _ _ _ fun i hi j hj => (hapart j hj i hi).symm
  refine ⟨ret, m', ?_, hchunk, hcopy⟩
  have hcommit := snd_pcm_mmap_commit_of_unset s.pcm offset ret h.unset
  unfold snd_pcm_mmap_readi
  rw [hbegin]
  dsimp only
  rw [hbytes, ok_bind, htoNat, haddr, hcopy, ok_bind, hcommit]
  rfl

end Transfer

end Salsa.Pcm.Stream
