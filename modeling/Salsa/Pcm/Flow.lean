import Salsa.Pcm.Stream

/-!
# Nothing is lost on the way

What comes out of the ring buffer is what went in, frame by frame and in order, in every run of the
application, the hardware and the kernel that does not reach the boundary.
-/

namespace Salsa.Pcm.Stream

open HwParams Samples Fifo Run

/-- The application stays in what it was granted and in its own memory. The kernel moves the application's
pointer over frames that are there. The hardware does not pass the data, nor the free space. -/
def Allowed (b : Buffer) (s : State) : Act → Prop
  | .begin _ => True
  | .commit _ frames => frames.toNat ≤ s.ring.granted
  | .writei buffer size =>
    s.ring.pcm.stream = .playback ∧ b.Outside s.size buffer (size.toNat * b.frame_bytes)
  | .readi buffer size => s.ring.pcm.stream = .capture ∧ b.Outside s.size buffer (size.toNat * b.frame_bytes)
  | .rewind k _ =>
    k.errno = 0 →
      match s.ring.pcm.stream with
      | .playback => s.taken.length + k.frames.toNat ≤ s.ring.committed
      | .capture =>
        k.frames.toNat ≤ s.ring.committed ∧ s.put.length + k.frames.toNat ≤ s.ring.committed + s.size
  | .forward k _ => k.errno = 0 → s.ring.committed + k.frames.toNat ≤ s.ring.reach
  | .store a _ =>
    b.Outside s.size a 1 ∨
      s.ring.pcm.stream = .playback ∧ ∃ i < s.ring.granted, ∃ j < b.frame_bytes,
        a = b.start + (s.ring.committed + i) % s.size * b.frame_bytes + j
  | .play frames => s.ring.pcm.stream = .playback ∧ s.taken.length + frames ≤ s.put.length
  | .capture frames =>
    s.ring.pcm.stream = .capture ∧ s.put.length + frames.length ≤ s.ring.committed + s.size ∧
      ∀ frame ∈ frames, frame.length = b.frame_bytes
  | .update => True

/-- The step leaves the totals below the boundary. -/
def BeforeWrap (b : Buffer) (s : State) (a : Act) : Prop :=
  ∀ s', step b s a = some s' → s'.ring.committed < s.ring.pcm.sw_params.boundary.toNat ∧
    s'.ring.moved < s.ring.pcm.sw_params.boundary.toNat

/-- The frames that came out are the first of those that went in, and the buffer holds the others. -/
structure Carried (b : Buffer) (s : State) : Prop where
  order : s.taken ++ window s.size (b.slot s.m) s.taken.length (s.put.length - s.taken.length) = s.put
  room : s.put.length ≤ s.taken.length + s.size

/-! ## The pointers -/

/-- The application's pointer stands at another total that the hardware leaves it. -/
theorem inv_repoint (s : Ring) (h : Pcm.Inv s) (appl_ptr : Uframes) (committed : Nat)
    (happl : appl_ptr.toNat = committed) (hbelow : committed < s.pcm.sw_params.boundary.toNat)
    (hreached : committed ≤ s.reach) (hreach : s.reach ≤ committed + s.pcm.buffer_size.toNat) :
    Pcm.Inv { s with pcm := { s.pcm with appl_ptr }, committed, granted := 0 } where
  unset := h.unset
  size := h.size
  fits := h.fits
  appl_ptr := happl
  hw_ptr := h.hw_ptr
  committed := hbelow
  moved := h.moved
  reached := hreached
  reach := hreach
  room := (Nat.mod_lt committed h.size).le

theorem advance_inv (s : Ring) (h : Pcm.Inv s) (frames : Nat) (hallowed : Pcm.Allowed s (.advance frames))
    (hbelow : s.moved + frames < s.pcm.sw_params.boundary.toNat) :
    ∃ ring, Pcm.step s (.advance frames) = some ring ∧ Pcm.Inv ring ∧ ring.committed = s.committed ∧
      ring.moved = s.moved + frames ∧ ring.pcm.stream = s.pcm.stream ∧ ring.pcm.buffer_size = s.pcm.buffer_size := by
  obtain ⟨ring, hstep, hinv⟩ := step_beforeWrap s (.advance frames) h hallowed hbelow
  refine ⟨ring, hstep, hinv, ?_⟩
  cases hstep
  exact ⟨rfl, rfl, rfl, rfl⟩

theorem begin_inv (s : Ring) (h : Pcm.Inv s) (frames : Uframes) :
    ∃ granted, Pcm.step s (.begin frames) = some { s with granted } ∧ Pcm.Inv { s with granted } := by
  obtain ⟨ring, hstep, hinv⟩ := step_beforeWrap s (.begin frames) h trivial trivial
  obtain ⟨⟨offset, granted⟩, -, heq⟩ := Option.map_eq_some_iff.mp hstep
  subst heq
  exact ⟨_, hstep, hinv⟩

theorem commit_inv (s : Ring) (h : Pcm.Inv s) (offset frames : Uframes) (hgranted : frames.toNat ≤ s.granted)
    (hbelow : s.committed + frames.toNat < s.pcm.sw_params.boundary.toNat) :
    ∃ ring, Pcm.step s (.commit offset frames) = some ring ∧ Pcm.Inv ring ∧
      ring.committed = s.committed + frames.toNat ∧ ring.moved = s.moved ∧ ring.pcm.stream = s.pcm.stream ∧
      ring.pcm.buffer_size = s.pcm.buffer_size := by
  obtain ⟨ring, hstep, hinv⟩ := step_beforeWrap s (.commit offset frames) h hgranted hbelow
  refine ⟨ring, hstep, hinv, ?_⟩
  cases hstep
  exact ⟨rfl, rfl, rfl, rfl⟩

/-- The pointer stays, or moves as the kernel says. -/
theorem move_cases (k : Moved) (pcm : SndPcm) (frames appl_ptr : Uframes)
    (hlong : k.errno = 0 → k.frames.toNat < 2 ^ 63) :
    (move_appl_ptr k pcm frames appl_ptr).1.toNat = 0 ∧ (move_appl_ptr k pcm frames appl_ptr).2 = pcm ∨
      k.errno = 0 ∧ (move_appl_ptr k pcm frames appl_ptr).1.toNat = k.frames.toNat ∧
        (move_appl_ptr k pcm frames appl_ptr).2 = { pcm with appl_ptr } := by
  unfold move_appl_ptr
  split_ifs with hframes herrno
  · exact Or.inl ⟨rfl, rfl⟩
  · exact Or.inl ⟨by simp, rfl⟩
  · have hzero := Decidable.not_not.mp herrno
    have hsmall := hlong hzero
    refine Or.inr ⟨hzero, ?_, rfl⟩
    rw [BitVec.toInt_eq_toNat_of_lt (by omega), Int.toNat_natCast]

/-- The ring is the same but for the application's pointer. -/
structure Repointed (s s' : Ring) : Prop where
  inv : Pcm.Inv s'
  moved : s'.moved = s.moved
  stream : s'.pcm.stream = s.pcm.stream
  size : s'.pcm.buffer_size = s.pcm.buffer_size
  granted : s'.granted = 0

theorem repointed (s : Ring) (h : Pcm.Inv s) (appl_ptr : Uframes) (committed : Nat)
    (happl : appl_ptr.toNat = committed) (hbelow : committed < s.pcm.sw_params.boundary.toNat)
    (hreached : committed ≤ s.reach) (hreach : s.reach ≤ committed + s.pcm.buffer_size.toNat) :
    Repointed s { s with pcm := { s.pcm with appl_ptr }, committed, granted := 0 } :=
  ⟨inv_repoint s h appl_ptr committed happl hbelow hreached hreach, rfl, rfl, rfl, rfl⟩

theorem repointed_stay (s : Ring) (h : Pcm.Inv s) : Repointed s { s with granted := 0 } := by
  have hreached := h.reached
  exact repointed s h s.pcm.appl_ptr s.committed h.appl_ptr h.committed (by omega) h.reach

theorem forwarded_spec (s : Ring) (h : Pcm.Inv s) (k : Moved) (frames : Uframes)
    (hallowed : k.errno = 0 → s.committed + k.frames.toNat ≤ s.reach)
    (hbelow : (forwarded s k frames).committed < s.pcm.sw_params.boundary.toNat) :
    s.committed ≤ (forwarded s k frames).committed ∧ Repointed s (forwarded s k frames) := by
  have hfits := h.fits
  have hreach := h.reach
  have hcommitted := h.committed
  have hmax : LONG_MAX_U.toNat = 2 ^ 63 - 1 := rfl
  have hlong : k.errno = 0 → k.frames.toNat < 2 ^ 63 := fun hk => by
    have := hallowed hk
    omega
  unfold forwarded snd_pcm_forward at hbelow ⊢
  rcases move_cases k s.pcm frames (s.pcm.appl_ptr + k.frames) hlong with ⟨hret, hpcm⟩ | ⟨hk, hret, hpcm⟩
  · simp only [hret, hpcm]
    exact ⟨Nat.le_refl _, repointed_stay s h⟩
  · simp only [hret, hpcm] at hbelow ⊢
    have happl : (s.pcm.appl_ptr + k.frames).toNat = s.committed + k.frames.toNat := by
      rw [BitVec.toNat_add, h.appl_ptr, Nat.mod_eq_of_lt (by omega)]
    exact ⟨Nat.le_add_right _ _, repointed s h _ _ happl hbelow (hallowed hk) (by omega)⟩

theorem rewound_spec (s : Ring) (h : Pcm.Inv s) (k : Moved) (frames : Uframes)
    (hback : k.errno = 0 → k.frames.toNat ≤ s.committed)
    (hroom : k.errno = 0 → s.reach + k.frames.toNat ≤ s.committed + s.pcm.buffer_size.toNat) :
    (rewound s k frames).committed ≤ s.committed ∧
      ((rewound s k frames).committed = s.committed ∨
        k.errno = 0 ∧ (rewound s k frames).committed = s.committed - k.frames.toNat) ∧
      Repointed s (rewound s k frames) := by
  have hfits := h.fits
  have hreached := h.reached
  have hcommitted := h.committed
  have hmax : LONG_MAX_U.toNat = 2 ^ 63 - 1 := rfl
  have hlong : k.errno = 0 → k.frames.toNat < 2 ^ 63 := fun hk => by
    have := hback hk
    omega
  unfold rewound snd_pcm_rewind
  rcases move_cases k s.pcm frames (s.pcm.appl_ptr - k.frames) hlong with ⟨hret, hpcm⟩ | ⟨hk, hret, hpcm⟩
  · simp only [hret, hpcm]
    exact ⟨Nat.sub_le _ _, Or.inl rfl, repointed_stay s h⟩
  · simp only [hret, hpcm]
    have hle := hback hk
    have hfree := hroom hk
    have happl : (s.pcm.appl_ptr - k.frames).toNat = s.committed - k.frames.toNat := by
      rw [BitVec.toNat_sub_of_le (by rw [BitVec.le_def, h.appl_ptr]; exact hle), h.appl_ptr]
    exact ⟨Nat.sub_le _ _, Or.inr ⟨hk, trivial⟩, repointed s h _ _ happl (by omega) (by omega) (by omega)⟩

/-! ## Playback -/

structure Plays (b : Buffer) (s : State) : Prop where
  ring : Pcm.Inv s.ring
  layout : Interleaved b s.size
  stream : s.ring.pcm.stream = .playback
  put : s.put.length = s.ring.committed
  moved : s.ring.moved ≤ s.taken.length
  taken : s.taken <+: s.put
  holds : Holds s.size (b.slot s.m) s.put s.taken.length

section Playback

variable (b : Buffer) (s : State) (h : Plays b s)

include h

theorem plays_reach : s.ring.reach = s.ring.moved + s.size := by
  unfold Ring.reach
  rw [h.stream]
  rfl

/-- Frames that are put in where there is room. -/
theorem plays_put (ring : Ring) (m : Mem) (xs : List Frame) (hring : Pcm.Inv ring)
    (hsize : ring.pcm.buffer_size = s.ring.pcm.buffer_size) (hstream : ring.pcm.stream = s.ring.pcm.stream)
    (hcommitted : ring.committed = s.ring.committed + xs.length) (hmoved : ring.moved = s.ring.moved)
    (hkept : ∀ t < s.put.length, s.taken.length ≤ t → b.slot m (t % s.size) = b.slot s.m (t % s.size))
    (hput : ∀ i (hi : i < xs.length), b.slot m ((s.put.length + i) % s.size) = xs[i]) :
    Plays b { s with ring, m, put := s.put ++ xs } := by
  have hsame : ({ s with ring, m, put := s.put ++ xs } : State).size = s.size := congrArg BitVec.toNat hsize
  exact
    { ring := hring
      layout := hsame ▸ h.layout
      stream := hstream.trans h.stream
      put := by rw [List.length_append, h.put]; exact hcommitted.symm
      moved := hmoved ▸ h.moved
      taken := h.taken.trans (List.prefix_append _ _)
      holds := hsame ▸ h.holds.append hkept hput }

/-- Bytes that are not of a frame in the queue may change. -/
theorem plays_mem (m : Mem)
    (hkept : ∀ t < s.put.length, s.taken.length ≤ t → b.slot m (t % s.size) = b.slot s.m (t % s.size)) :
    Plays b { s with m } :=
  { h with holds := h.holds.congr hkept }

theorem plays_writei (buffer : Nat) (size : Uframes) (houtside : b.Outside s.size buffer (size.toNat * b.frame_bytes))
    (hbefore : BeforeWrap b s (.writei buffer size)) :
    ∃ s', step b s (.writei buffer size) = some s' ∧ Plays b s' := by
  obtain ⟨ret, m', hcall, hchunk, hcopy⟩ := writei_spec b s.ring h.ring h.layout s.m buffer size houtside
  have hstep : step b s (.writei buffer size) = some
      { s with
        ring :=
          { s.ring with
            pcm := { s.ring.pcm with appl_ptr := s.ring.pcm.appl_ptr + ret }
            committed := s.ring.committed + ret.toNat
            granted := 0 }
        m := m'
        put := s.put ++ b.frames_at s.m buffer ret.toNat } := by
    rw [step, hcall]
  have hbelow := (hbefore _ hstep).1
  have hfits := h.ring.fits
  have hmax : LONG_MAX_U.toNat = 2 ^ 63 - 1 := rfl
  have hreach : s.ring.reach ≤ s.ring.committed + s.size := h.ring.reach
  have hreached := hchunk.reached
  have hroom : s.ring.committed % s.size + ret.toNat ≤ s.size := hchunk.room
  have hlength : (b.frames_at s.m buffer ret.toNat).length = ret.toNat := by simp [Buffer.frames_at]
  obtain ⟨hfilled, hothers⟩ := slot_of_copied b s.m m' _ buffer ret.toNat hcopy
  refine ⟨_, hstep, plays_put b s h _ m' _ ?_ rfl rfl (by rw [hlength]) rfl ?_ ?_⟩
  · have happl : (s.ring.pcm.appl_ptr + ret).toNat = s.ring.committed + ret.toNat := by
      dsimp only at hbelow
      rw [BitVec.toNat_add, h.ring.appl_ptr, Nat.mod_eq_of_lt (by omega)]
    exact inv_repoint s.ring h.ring _ _ happl hbelow hreached (hreach.trans (by unfold State.size; omega))
  · intro t ht hlow
    have hmoved := h.moved
    rw [plays_reach b s h] at hreached
    rw [h.put] at ht
    exact hothers _ (slot_outside _ _ t hroom ht (by omega))
  · intro i hi
    rw [hlength] at hi
    rw [h.put, slot_of_room s.ring.committed ret.toNat i hroom hi]
    refine (hfilled i hi).trans ?_
    simp [Buffer.frames_at]

/-- The frames that the pointer goes on by are put in as they lie in the buffer. -/
theorem plays_committed (ring : Ring) (k : Nat) (hring : Pcm.Inv ring)
    (hsize : ring.pcm.buffer_size = s.ring.pcm.buffer_size) (hstream : ring.pcm.stream = s.ring.pcm.stream)
    (hcommitted : ring.committed = s.ring.committed + k) (hmoved : ring.moved = s.ring.moved) :
    Plays b (s.committed b ring s.m k) := by
  have hstate : s.committed b ring s.m k =
      { s with ring, put := s.put ++ window s.size (b.slot s.m) s.ring.committed k } := by
    unfold State.committed
    rw [h.stream]
  rw [hstate]
  apply plays_put b s h ring s.m _ hring hsize hstream (by rw [length_window]; exact hcommitted) hmoved
  · intro t _ _
    rfl
  · intro i hi
    rw [h.put]
    exact (getElem_window _ _ _ _ hi).symm

theorem plays_commit (offset frames : Uframes) (hgranted : frames.toNat ≤ s.ring.granted)
    (hbefore : BeforeWrap b s (.commit offset frames)) :
    ∃ s', step b s (.commit offset frames) = some s' ∧ Plays b s' := by
  have hbelow : s.ring.committed + frames.toNat < s.ring.pcm.sw_params.boundary.toNat := by
    have := (hbefore _ rfl).1
    unfold State.committed at this
    rwa [h.stream] at this
  obtain ⟨ring, hstep, hring, hcommitted, hmoved, hstream, hsize⟩ :=
    commit_inv s.ring h.ring offset frames hgranted hbelow
  refine ⟨s.committed b ring s.m frames.toNat, by rw [step, hstep]; rfl, ?_⟩
  exact plays_committed b s h ring _ hring hsize hstream hcommitted hmoved

theorem plays_forward (k : Moved) (frames : Uframes) (hallowed : Allowed b s (.forward k frames))
    (hbefore : BeforeWrap b s (.forward k frames)) : ∃ s', step b s (.forward k frames) = some s' ∧ Plays b s' := by
  have hbelow : (forwarded s.ring k frames).committed < s.ring.pcm.sw_params.boundary.toNat := by
    have := (hbefore _ rfl).1
    unfold State.committed at this
    rwa [h.stream] at this
  obtain ⟨hle, hring⟩ := forwarded_spec s.ring h.ring k frames hallowed hbelow
  exact ⟨_, rfl, plays_committed b s h _ _ hring.inv hring.size hring.stream (by omega) hring.moved⟩

theorem plays_rewind (k : Moved) (frames : Uframes) (hallowed : Allowed b s (.rewind k frames)) :
    ∃ s', step b s (.rewind k frames) = some s' ∧ Plays b s' := by
  have hreach := plays_reach b s h
  have hmoved := h.moved
  have hput := h.put
  have hkept : k.errno = 0 → s.taken.length + k.frames.toNat ≤ s.ring.committed := by
    simpa only [Allowed, h.stream] using hallowed
  obtain ⟨hle, hback, hring⟩ := rewound_spec s.ring h.ring k frames
    (fun hk => by have := hkept hk; omega)
    (fun hk => by
      have := hkept hk
      change _ ≤ _ + s.size
      omega)
  refine ⟨{ s with ring := rewound s.ring k frames, put := s.put.take (rewound s.ring k frames).committed }, ?_, ?_⟩
  · rw [step]
    simp only [h.stream]
  · have hsame : State.size { s with ring := rewound s.ring k frames } = s.size := congrArg BitVec.toNat hring.size
    have htaken : s.taken.length ≤ (rewound s.ring k frames).committed := by
      have := h.taken.length_le
      rcases hback with hback | ⟨hk, hback⟩
      · omega
      · have := hkept hk
        omega
    exact
      { ring := hring.inv
        layout := hsame ▸ h.layout
        stream := hring.stream.trans h.stream
        put := by rw [List.length_take, Nat.min_eq_left (by omega)]
        moved := hring.moved ▸ h.moved
        taken := List.prefix_take_iff.mpr ⟨h.taken, htaken⟩
        holds := hsame ▸ h.holds.take _ }

theorem plays_store (a : Nat) (v : BitVec 8) (hallowed : Allowed b s (.store a v)) :
    ∃ s', step b s (.store a v) = some s' ∧ Plays b s' := by
  refine ⟨_, rfl, plays_mem b s h _ ?_⟩
  intro t ht hlow
  apply bytes_at_congr
  intro j hj
  unfold Mem.set
  apply Function.update_of_ne
  have hpos : t % s.size < s.size := Nat.mod_lt _ h.ring.size
  have hend := byte_lt (t % s.size) s.size b.frame_bytes j hpos hj
  rcases hallowed with houtside | ⟨-, i, hi, j', hj', rfl⟩
  · rcases houtside with houtside | houtside <;> omega
  · -- The frames granted have slots of their own.
    have hreached := h.ring.reached
    have hreach := plays_reach b s h
    have hmoved := h.moved
    have hput := h.put
    have hne := slot_ne (n := s.size) t t (s.ring.committed + i) le_rfl (by omega) (by omega)
    rcases Nat.lt_or_gt_of_ne hne with hlt | hlt
    · have := byte_lt _ _ b.frame_bytes j hlt hj
      omega
    · have := byte_lt _ _ b.frame_bytes j' hlt hj'
      omega

theorem plays_play (frames : Nat) (hallowed : Allowed b s (.play frames)) :
    ∃ s', step b s (.play frames) = some s' ∧ Plays b s' := by
  obtain ⟨-, hqueued⟩ := hallowed
  have htaken := h.holds.extend_taken h.taken frames le_rfl hqueued
  refine ⟨_, rfl, { h with moved := ?_, taken := htaken, holds := h.holds.mono ?_ }⟩
  · rw [List.length_append]
    exact h.moved.trans (Nat.le_add_right _ _)
  · rw [List.length_append]
    exact Nat.le_add_right _ _

theorem plays_update (hbefore : BeforeWrap b s .update) : ∃ s', step b s .update = some s' ∧ Plays b s' := by
  have hmoved := h.moved
  have hput := h.put
  have hlength := h.taken.length_le
  have hposition : s.position = s.taken.length := by
    unfold State.position
    rw [h.stream]
  have hbelow : s.ring.moved + (s.taken.length - s.ring.moved) < s.ring.pcm.sw_params.boundary.toNat := by
    have := (hbefore _ rfl).2
    rwa [hposition] at this
  have hallowed : Pcm.Allowed s.ring (.advance (s.taken.length - s.ring.moved)) := by
    unfold Pcm.Allowed
    rw [h.stream]
    dsimp only
    omega
  obtain ⟨ring, hstep, hring, hcommitted, hadvanced, hstream, hsize⟩ := advance_inv s.ring h.ring _ hallowed hbelow
  have hsame : ({ s with ring } : State).size = s.size := congrArg BitVec.toNat hsize
  refine ⟨{ s with ring }, by rw [step, hposition, hstep]; rfl, ?_⟩
  exact
    { h with
      ring := hring
      layout := hsame ▸ h.layout
      stream := hstream.trans h.stream
      put := hput.trans hcommitted.symm
      moved := by change ring.moved ≤ s.taken.length; omega
      holds := hsame ▸ h.holds }

theorem plays_step (a : Act) (hallowed : Allowed b s a) (hbefore : BeforeWrap b s a) :
    ∃ s', step b s a = some s' ∧ Plays b s' := by
  cases a with
  | begin frames =>
    obtain ⟨granted, hstep, hring⟩ := begin_inv s.ring h.ring frames
    exact ⟨{ s with ring := { s.ring with granted } }, by rw [step, hstep]; rfl, { h with ring := hring }⟩
  | commit offset frames => exact plays_commit b s h offset frames hallowed hbefore
  | writei buffer size => exact plays_writei b s h buffer size hallowed.2 hbefore
  | readi buffer size => exact absurd (h.stream.symm.trans hallowed.1) (by decide)
  | rewind k frames => exact plays_rewind b s h k frames hallowed
  | forward k frames => exact plays_forward b s h k frames hallowed hbefore
  | store a v => exact plays_store b s h a v hallowed
  | play frames => exact plays_play b s h frames hallowed
  | capture frames => exact absurd (h.stream.symm.trans hallowed.1) (by decide)
  | update => exact plays_update b s h hbefore

end Playback

/-! ## Capture -/

/-- The last lap of what was captured is in the buffer, also what the application has taken of it: a rewind
comes back to it. -/
structure Captures (b : Buffer) (s : State) : Prop where
  ring : Pcm.Inv s.ring
  layout : Interleaved b s.size
  stream : s.ring.pcm.stream = .capture
  length : s.taken.length = s.ring.committed
  moved : s.ring.moved ≤ s.put.length
  room : s.put.length ≤ s.ring.committed + s.size
  taken : s.taken <+: s.put
  holds : Holds s.size (b.slot s.m) s.put (s.put.length - s.size)

section Capture

variable (b : Buffer) (s : State) (h : Captures b s)

include h

/-- The application takes the frames under its pointer. -/
theorem captures_take (ring : Ring) (m : Mem) (k : Nat) (hring : Pcm.Inv ring)
    (hsize : ring.pcm.buffer_size = s.ring.pcm.buffer_size) (hstream : ring.pcm.stream = s.ring.pcm.stream)
    (hcommitted : ring.committed = s.ring.committed + k) (hmoved : ring.moved = s.ring.moved)
    (hkept : ∀ slot < s.size, b.slot m slot = b.slot s.m slot) :
    Captures b { s with ring, m, taken := s.taken ++ window s.size (b.slot s.m) s.ring.committed k } := by
  have hsame : ({ s with ring, m } : State).size = s.size := congrArg BitVec.toNat hsize
  have hroom := h.room
  have hlength := h.length
  have hput := h.moved
  have hreached : ring.committed + ring.granted ≤ ring.moved := by
    have := hring.reached
    rwa [Ring.reach, hstream, h.stream] at this
  have htaken := h.holds.extend_taken h.taken k (by omega) (by omega)
  rw [hlength] at htaken
  have hpos : 0 < s.size := h.ring.size
  exact
    { ring := hring
      layout := hsame ▸ h.layout
      stream := hstream.trans h.stream
      length := by rw [List.length_append, length_window, hlength, hcommitted]
      moved := by rw [hmoved]; exact hput
      room := by rw [hcommitted]; exact hroom.trans (Nat.add_le_add (Nat.le_add_right _ _) hsame.ge)
      taken := htaken
      holds := hsame ▸ h.holds.congr fun t _ _ => hkept _ (Nat.mod_lt t hpos) }

theorem captures_readi (buffer : Nat) (size : Uframes)
    (houtside : b.Outside s.size buffer (size.toNat * b.frame_bytes)) (hbefore : BeforeWrap b s (.readi buffer size)) :
    ∃ s', step b s (.readi buffer size) = some s' ∧ Captures b s' := by
  obtain ⟨ret, m', hcall, hchunk, hcopy⟩ := readi_spec b s.ring h.ring h.layout s.m buffer size houtside
  have hroom : s.ring.committed % s.size + ret.toNat ≤ s.size := hchunk.room
  have hasked := Nat.mul_le_mul_right b.frame_bytes hchunk.asked
  have hwithin : b.Outside s.size buffer (ret.toNat * b.frame_bytes) := by
    rcases houtside with houtside | houtside
    · exact Or.inl (by omega)
    · exact Or.inr houtside
  obtain ⟨hread, hkept⟩ := frames_at_of_copied b s.size s.m m' _ buffer ret.toNat hcopy hwithin
  have hwindow : b.frames_at m' buffer ret.toNat = window s.size (b.slot s.m) s.ring.committed ret.toNat := by
    rw [hread]
    apply List.map_congr_left
    intro i hi
    rw [slot_of_room s.ring.committed ret.toNat i hroom (List.mem_range.mp hi)]
    rfl
  have hstep : step b s (.readi buffer size) = some
      { s with
        ring :=
          { s.ring with
            pcm := { s.ring.pcm with appl_ptr := s.ring.pcm.appl_ptr + ret }
            committed := s.ring.committed + ret.toNat
            granted := 0 }
        m := m'
        taken := s.taken ++ window s.size (b.slot s.m) s.ring.committed ret.toNat } := by
    rw [step, hcall, ← hwindow]
  have hbelow := (hbefore _ hstep).1
  have hfits := h.ring.fits
  have hmax : LONG_MAX_U.toNat = 2 ^ 63 - 1 := rfl
  have hreach := h.ring.reach
  have happl : (s.ring.pcm.appl_ptr + ret).toNat = s.ring.committed + ret.toNat := by
    dsimp only at hbelow
    rw [BitVec.toNat_add, h.ring.appl_ptr, Nat.mod_eq_of_lt (by omega)]
  have hring := inv_repoint s.ring h.ring _ _ happl hbelow hchunk.reached (by omega)
  exact ⟨_, hstep, captures_take b s h _ m' _ hring rfl rfl rfl rfl hkept⟩

theorem captures_committed (ring : Ring) (k : Nat) (hring : Pcm.Inv ring)
    (hsize : ring.pcm.buffer_size = s.ring.pcm.buffer_size) (hstream : ring.pcm.stream = s.ring.pcm.stream)
    (hcommitted : ring.committed = s.ring.committed + k) (hmoved : ring.moved = s.ring.moved) :
    Captures b (s.committed b ring s.m k) := by
  have hstate : s.committed b ring s.m k =
      { s with ring, taken := s.taken ++ window s.size (b.slot s.m) s.ring.committed k } := by
    unfold State.committed
    rw [h.stream]
  rw [hstate]
  exact captures_take b s h ring s.m k hring hsize hstream hcommitted hmoved fun _ _ => rfl

theorem captures_commit (offset frames : Uframes) (hgranted : frames.toNat ≤ s.ring.granted)
    (hbefore : BeforeWrap b s (.commit offset frames)) :
    ∃ s', step b s (.commit offset frames) = some s' ∧ Captures b s' := by
  have hbelow : s.ring.committed + frames.toNat < s.ring.pcm.sw_params.boundary.toNat := by
    have := (hbefore _ rfl).1
    unfold State.committed at this
    rwa [h.stream] at this
  obtain ⟨ring, hstep, hring, hcommitted, hmoved, hstream, hsize⟩ :=
    commit_inv s.ring h.ring offset frames hgranted hbelow
  refine ⟨s.committed b ring s.m frames.toNat, by rw [step, hstep]; rfl, ?_⟩
  exact captures_committed b s h ring _ hring hsize hstream hcommitted hmoved

theorem captures_forward (k : Moved) (frames : Uframes) (hallowed : Allowed b s (.forward k frames))
    (hbefore : BeforeWrap b s (.forward k frames)) : ∃ s', step b s (.forward k frames) = some s' ∧ Captures b s' := by
  have hbelow : (forwarded s.ring k frames).committed < s.ring.pcm.sw_params.boundary.toNat := by
    have := (hbefore _ rfl).1
    unfold State.committed at this
    rwa [h.stream] at this
  obtain ⟨hle, hring⟩ := forwarded_spec s.ring h.ring k frames hallowed hbelow
  exact ⟨_, rfl, captures_committed b s h _ _ hring.inv hring.size hring.stream (by omega) hring.moved⟩

theorem captures_rewind (k : Moved) (frames : Uframes) (hallowed : Allowed b s (.rewind k frames)) :
    ∃ s', step b s (.rewind k frames) = some s' ∧ Captures b s' := by
  have hreach : s.ring.reach = s.ring.moved := by
    unfold Ring.reach
    rw [h.stream]
  have hmoved := h.moved
  have hlength := h.length
  have hkept : k.errno = 0 → k.frames.toNat ≤ s.ring.committed ∧
      s.put.length + k.frames.toNat ≤ s.ring.committed + s.size := by
    simpa only [Allowed, h.stream] using hallowed
  obtain ⟨hle, hback, hring⟩ := rewound_spec s.ring h.ring k frames (fun hk => (hkept hk).1)
    (fun hk => by
      have := (hkept hk).2
      change _ ≤ _ + s.size
      omega)
  refine ⟨{ s with ring := rewound s.ring k frames, taken := s.taken.take (rewound s.ring k frames).committed }, ?_, ?_⟩
  · rw [step]
    simp only [h.stream]
  · have hsame : State.size { s with ring := rewound s.ring k frames } = s.size := congrArg BitVec.toNat hring.size
    have hroom : s.put.length ≤ (rewound s.ring k frames).committed + s.size := by
      have := h.room
      rcases hback with hback | ⟨hk, hback⟩
      · omega
      · have := hkept hk
        omega
    exact
      { ring := hring.inv
        layout := hsame ▸ h.layout
        stream := hring.stream.trans h.stream
        length := by rw [List.length_take, Nat.min_eq_left (by omega)]
        moved := hring.moved ▸ hmoved
        room := hsame ▸ hroom
        taken := (List.take_prefix _ _).trans h.taken
        holds := hsame ▸ h.holds }

theorem captures_store (a : Nat) (v : BitVec 8) (hallowed : Allowed b s (.store a v)) :
    ∃ s', step b s (.store a v) = some s' ∧ Captures b s' := by
  have houtside : b.Outside s.size a 1 := by
    rcases hallowed with houtside | ⟨hplayback, -⟩
    · exact houtside
    · exact absurd (h.stream.symm.trans hplayback) (by decide)
  refine ⟨_, rfl, { h with holds := h.holds.congr fun t _ _ => ?_ }⟩
  apply slot_congr b s.size s.m _ _ (Nat.mod_lt t h.ring.size)
  intro a' hlow hhigh
  apply Function.update_of_ne
  rcases houtside with houtside | houtside <;> omega

theorem captures_capture (frames : List Frame) (hallowed : Allowed b s (.capture frames)) :
    ∃ s', step b s (.capture frames) = some s' ∧ Captures b s' := by
  obtain ⟨-, hfree, hlength⟩ := hallowed
  have hmoved := h.moved
  have hcommitted : s.ring.committed ≤ s.put.length := h.length ▸ h.taken.length_le
  refine ⟨_, rfl, { h with moved := ?_, room := ?_, taken := ?_, holds := ?_ }⟩
  · rw [List.length_append]
    exact hmoved.trans (Nat.le_add_right _ _)
  · rw [List.length_append]
    exact hfree
  · exact h.taken.trans (List.prefix_append _ _)
  · have hlow : s.put.length - s.size ≤ (s.put ++ frames).length - s.size := by
      rw [List.length_append]
      omega
    apply (h.holds.mono hlow).append
    · intro t ht hlow
      rw [List.length_append] at hlow
      apply slot_record
      intro i hi
      exact slot_ne t t (s.put.length + i) le_rfl (by omega) (by omega)
    · intro i hi
      exact slot_recorded b s.size s.put.length frames s.m (by omega) hlength i hi

theorem captures_update (hbefore : BeforeWrap b s .update) : ∃ s', step b s .update = some s' ∧ Captures b s' := by
  have hmoved := h.moved
  have hroom := h.room
  have hposition : s.position = s.put.length := by
    unfold State.position
    rw [h.stream]
  have hbelow : s.ring.moved + (s.put.length - s.ring.moved) < s.ring.pcm.sw_params.boundary.toNat := by
    have := (hbefore _ rfl).2
    rwa [hposition] at this
  have hallowed : Pcm.Allowed s.ring (.advance (s.put.length - s.ring.moved)) := by
    unfold Pcm.Allowed
    rw [h.stream]
    change _ ≤ _ + s.size
    omega
  obtain ⟨ring, hstep, hring, hcommitted, hadvanced, hstream, hsize⟩ := advance_inv s.ring h.ring _ hallowed hbelow
  have hsame : ({ s with ring } : State).size = s.size := congrArg BitVec.toNat hsize
  refine ⟨{ s with ring }, by rw [step, hposition, hstep]; rfl, ?_⟩
  exact
    { h with
      ring := hring
      layout := hsame ▸ h.layout
      stream := hstream.trans h.stream
      length := h.length.trans hcommitted.symm
      moved := by change ring.moved ≤ s.put.length; omega
      room := by rw [hsame, hcommitted]; exact hroom
      holds := hsame ▸ h.holds }

theorem captures_step (a : Act) (hallowed : Allowed b s a) (hbefore : BeforeWrap b s a) :
    ∃ s', step b s a = some s' ∧ Captures b s' := by
  cases a with
  | begin frames =>
    obtain ⟨granted, hstep, hring⟩ := begin_inv s.ring h.ring frames
    exact ⟨{ s with ring := { s.ring with granted } }, by rw [step, hstep]; rfl, { h with ring := hring }⟩
  | commit offset frames => exact captures_commit b s h offset frames hallowed hbefore
  | writei buffer size => exact absurd (h.stream.symm.trans hallowed.1) (by decide)
  | readi buffer size => exact captures_readi b s h buffer size hallowed.2 hbefore
  | rewind k frames => exact captures_rewind b s h k frames hallowed
  | forward k frames => exact captures_forward b s h k frames hallowed hbefore
  | store a v => exact captures_store b s h a v hallowed
  | play frames => exact absurd (h.stream.symm.trans hallowed.1) (by decide)
  | capture frames => exact captures_capture b s h frames hallowed
  | update => exact captures_update b s h hbefore

end Capture

/-! ## Whole runs -/

theorem Plays.carried (b : Buffer) (s : State) (h : Plays b s) : Carried b s where
  order := h.holds.taken_append_window h.taken
  room := by
    have hput := h.put
    have hmoved := h.moved
    have hreached := h.ring.reached
    rw [plays_reach b s h] at hreached
    omega

theorem Captures.carried (b : Buffer) (s : State) (h : Captures b s) : Carried b s where
  order := by
    have hlength := h.length
    have hroom := h.room
    exact (h.holds.mono (by omega)).taken_append_window h.taken
  room := h.length ▸ h.room

def State.start (pcm : SndPcm) (m : Mem) : State := { ring := Ring.start pcm, m, put := [], taken := [] }

theorem start_plays (b : Buffer) (pcm : SndPcm) (m : Mem) (hunset : pcm.boundary = 0#64) (h : SetUp pcm)
    (hb : Interleaved b pcm.buffer_size.toNat) (hstream : pcm.stream = .playback) : Plays b (.start pcm m) where
  ring := inv_start pcm hunset h
  layout := hb
  stream := hstream
  put := rfl
  moved := Nat.le_refl 0
  taken := List.prefix_rfl
  holds := Holds.nil _ _

theorem start_captures (b : Buffer) (pcm : SndPcm) (m : Mem) (hunset : pcm.boundary = 0#64) (h : SetUp pcm)
    (hb : Interleaved b pcm.buffer_size.toNat) (hstream : pcm.stream = .capture) : Captures b (.start pcm m) where
  ring := inv_start pcm hunset h
  layout := hb
  stream := hstream
  length := rfl
  moved := Nat.le_refl 0
  room := Nat.zero_le _
  taken := List.prefix_rfl
  holds := Holds.nil _ _

/-- Interleaved frames of two 16-bit samples. -/
def stereo : Buffer := { area := { addr := 4096, first := 0, step := 32 }, frame_bits := 32 }

theorem stereo_interleaved : Interleaved stereo 1024 :=
  ⟨by decide, by decide, by decide, rfl, by decide⟩

theorem beforeWrap_of_step (b : Buffer) (s s' : State) (a : Act) (h : step b s a = some s')
    (hbelow : s'.ring.committed < s.ring.pcm.sw_params.boundary.toNat ∧
      s'.ring.moved < s.ring.pcm.sw_params.boundary.toNat) : BeforeWrap b s a := by
  intro t ht
  obtain rfl := Option.some.inj (h.symm.trans ht)
  exact hbelow

end Salsa.Pcm.Stream
