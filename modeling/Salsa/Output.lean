import Salsa.Errno
import Salsa.Lib.Memory
import Salsa.Lib.Run

/-!
# The string output of `output.c`

`printf` is modelled by the text that its format expands to. The property of
interest is that the buffer is an append log.
-/

open Memory Run

namespace Salsa.Output

def CHUNK : Int := 4000

def NUL : Char := '\x00'

inductive SndOutputType
  | stdio
  | buffer

/-- `struct snd_output`. `ptr` is the heap block of a buffer output, `stream` what went to
the `FILE` of a stdio output. -/
structure SndOutput where
  mode : SndOutputType
  ptr : List Char
  stream : List Char
  len : Int
  size : Int

/-- The conversion of a `size_t` to `int`. -/
def toInt (n : Nat) : Int := (n + 2147483648) % 4294967296 - 2147483648

/-- `vsnprintf(ptr + ofs, n, ..)`: the text cut to `n - 1` characters, and a NUL. -/
def vsnprintf (block : List Char) (ofs n : Int) (text : List Char) : Option (Int × List Char) :=
  let ret := if text.length ≤ INT_MAX then (text.length : Int) else -1
  if n ≤ 0 then some (ret, block)
  else (poke block ofs (text.take (n - 1).toNat ++ [NUL])).map fun block' => (ret, block')

def resize (alloc : Alloc Char) (out : SndOutput) (new : Int) : Option (Int × SndOutput) :=
  let size := out.len + new + CHUNK
  if INT_MAX < size then none
  else match realloc alloc out.ptr (size % 18446744073709551616).toNat with
    | none => some (-ENOMEM, out)
    | some buf => some (0, { out with ptr := buf, size := size })

def snd_output_printf (alloc : Alloc Char) (out : SndOutput) (text : List Char) :
    Option (Int × SndOutput) :=
  match out.mode with
  | .stdio => some (text.length, { out with stream := out.stream ++ text })
  | .buffer =>
    (vsnprintf out.ptr out.len (out.size - out.len) text).bind fun (ret, ptr) =>
      let out := { out with ptr := ptr }
      if ret ≥ out.size - out.len then
        (resize alloc out ret).bind fun (err, out) =>
          if err < 0 then some (-ENOMEM, out)
          else
            (vsnprintf out.ptr out.len (out.size - out.len) text).map fun (ret, ptr) =>
              (ret, { out with ptr := ptr })
      else some (ret, out)

def snd_output_puts (alloc : Alloc Char) (out : SndOutput) (str : List Char) :
    Option (Int × SndOutput) :=
  match out.mode with
  | .stdio => some (1, { out with stream := out.stream ++ str })
  | .buffer =>
    let len := toInt str.length
    -- `strcpy(out->ptr + len, str)` with the length of the string, not `out->len`.
    let copy := fun (out : SndOutput) =>
      (poke out.ptr len (str ++ [NUL])).map fun ptr => (len, { out with ptr := ptr })
    if out.size - out.len ≤ len then
      (resize alloc out len).bind fun (err, out) =>
        if err < 0 then some (-ENOMEM, out) else copy out
    else copy out

def snd_output_putc (alloc : Alloc Char) (out : SndOutput) (c : Char) : Option (Int × SndOutput) :=
  match out.mode with
  | .stdio => some (c.toNat, { out with stream := out.stream ++ [c] })
  | .buffer =>
    let store := fun (out : SndOutput) =>
      (poke out.ptr out.len [c]).map fun ptr => (0, { out with ptr := ptr, len := out.len + 1 })
    if out.len + 1 ≥ out.size then
      (resize alloc out 1).bind fun (err, out) =>
        if err < 0 then some (-ENOMEM, out) else store out
    else store out

def snd_output_flush (out : SndOutput) : Int × SndOutput :=
  match out.mode with
  | .stdio => (0, out)
  | .buffer => (0, { out with len := 0 })

/-- The output is `none` where the `calloc` of the record fails. -/
def snd_output_buffer_open (calloc : Bool) (alloc : Alloc Char) : Option (Int × Option SndOutput) :=
  if calloc then
    let out : SndOutput :=
      { mode := .buffer, ptr := [], stream := [], len := 0, size := 0 }
    (resize alloc out 0).map fun (err, out) => (err, some out)
  else some (-ENOMEM, none)

/-- The returned length, and the bytes that `*buf` holds up to it. -/
def snd_output_buffer_string (out : SndOutput) : Int × List Char :=
  (out.len, out.ptr.take out.len.toNat)

/-! ## Runs of the writers -/

inductive Op
  | printf (text : List Char)
  | puts (str : List Char)
  | putc (c : Char)
  | flush

/-- One call. Its allocations succeed, with `fresh n` in a new block of `n` bytes. -/
structure Call where
  op : Op
  fresh : Nat → Nat → Char

def Call.alloc (call : Call) : Alloc Char := fun n => some (call.fresh n)

/-- An output, and everything written to it since the last flush. -/
structure Session where
  out : SndOutput
  written : List Char

def step (s : Session) (call : Call) : Option Session :=
  match call.op with
  | .printf text => (snd_output_printf call.alloc s.out text).map fun r => ⟨r.2, s.written ++ text⟩
  | .puts str => (snd_output_puts call.alloc s.out str).map fun r => ⟨r.2, s.written ++ str⟩
  | .putc c => (snd_output_putc call.alloc s.out c).map fun r => ⟨r.2, s.written ++ [c]⟩
  | .flush => some ⟨(snd_output_flush s.out).2, []⟩

def IsLog (s : Session) : Prop :=
  snd_output_buffer_string s.out = ((s.written.length : Int), s.written)

/-- `printf` and `puts` do not advance `len`, so only the empty text leaves the log right, and
`puts ""` stores its NUL at offset 0. `putc` works until the size leaves the range of `int`. -/
def Appends (s : Session) (call : Call) : Prop :=
  match call.op with
  | .printf text => text = []
  | .puts str => str = [] ∧ (s.out.len = 0 ∨ s.out.ptr.head? = some NUL)
  | .putc _ => s.out.len + 1 < s.out.size ∨ s.out.len + 1 + CHUNK ≤ INT_MAX
  | .flush => True

/-! ## One step -/

structure Inv (s : Session) : Prop where
  buffer : s.out.mode = .buffer
  size : s.out.size = s.out.ptr.length
  nonneg : 0 ≤ s.out.len
  room : s.out.len < s.out.size
  limit : s.out.size ≤ INT_MAX
  len : s.out.len = s.written.length
  text : s.out.ptr.take s.out.len.toNat = s.written

theorem Inv.isLog {s : Session} (h : Inv s) : IsLog s := by
  simp only [IsLog, snd_output_buffer_string, h.text]
  rw [h.len]

theorem Inv.fits {s : Session} (h : Inv s) : s.written.length < s.out.ptr.length := by
  have := h.len; have := h.size; have := h.room; omega

theorem Inv.take {s : Session} (h : Inv s) : s.out.ptr.take s.written.length = s.written := by
  have ht := h.text
  rwa [h.len, Int.toNat_natCast] at ht

theorem resize_spec (fresh : Nat → Nat → Char) (out : SndOutput) (new : Int)
    (hlen : 0 ≤ out.len) (hnew : 0 ≤ new) (hmax : out.len + new + CHUNK ≤ INT_MAX) :
    ∃ buf, resize (fun n => some (fresh n)) out new =
        some (0, { out with ptr := buf, size := out.len + new + CHUNK }) ∧
      (buf.length : Int) = out.len + new + CHUNK ∧
      (out.len ≤ out.ptr.length → buf.take out.len.toNat = out.ptr.take out.len.toNat) := by
  have hsize : ((out.len + new + CHUNK) % 18446744073709551616).toNat =
      (out.len + new + CHUNK).toNat := by
    simp only [CHUNK, INT_MAX] at *; omega
  obtain ⟨buf, hbuf⟩ : ∃ buf, realloc (fun n => some (fresh n)) out.ptr
      (out.len + new + CHUNK).toNat = some buf := ⟨_, rfl⟩
  refine ⟨buf, ?_, ?_, ?_⟩
  · simp only [resize, hsize, hbuf]
    rw [if_neg (by omega)]
  · rw [realloc_length _ _ _ _ hbuf]
    simp only [CHUNK]; omega
  · intro hptr
    apply realloc_take _ _ _ _ _ hbuf
    · omega
    · simp only [CHUNK]; omega

/-- A NUL stored at or behind the end of the log does not show in it. -/
theorem take_poke (block : List Char) (n : Nat) (rest : List Char) (h : n ≤ block.length) :
    (block.take n ++ rest).take n = block.take n := by
  rw [List.take_append_of_le_length (by simp [h]), List.take_take, Nat.min_self]

theorem printf_empty_spec (alloc : Alloc Char) (s : Session) (h : Inv s) :
    ∃ out, snd_output_printf alloc s.out [] = some (0, out) ∧ Inv ⟨out, s.written⟩ := by
  have hfits := h.fits
  have hpoke := poke_of_fits s.out.ptr s.written.length [NUL] (by simp; omega)
  have hlen := h.len
  have hroom := h.room
  refine ⟨{ s.out with ptr := (s.out.ptr.take s.written.length ++ [NUL] ++
    s.out.ptr.drop (s.written.length + 1)) }, ?_, ?_⟩
  · simp only [snd_output_printf, h.buffer, vsnprintf, List.take_nil, List.nil_append, hlen, hpoke]
    rw [if_neg (by omega)]
    simp only [Option.map_some, Option.bind_some, INT_MAX]
    simp
    omega
  · refine ⟨h.buffer, ?_, h.nonneg, h.room, h.limit, h.len, ?_⟩
    · simp only [h.size, List.length_append, List.length_take, List.length_drop,
        List.length_singleton]
      omega
    · simp only [hlen, Int.toNat_natCast, List.append_assoc]
      rw [take_poke _ _ _ (by omega), h.take]

/-- `puts ""` overwrites the first character with NUL. -/
theorem puts_empty_spec (alloc : Alloc Char) (s : Session) (h : Inv s) :
    snd_output_puts alloc s.out [] =
      some (0, { s.out with ptr := NUL :: s.out.ptr.drop 1 }) := by
  have hpoke := poke_of_fits s.out.ptr 0 [NUL] (by have := h.fits; simp; omega)
  have hroom := h.room
  simp only [snd_output_puts, h.buffer, toInt, List.length_nil, List.nil_append]
  rw [if_neg (by omega)]
  simpa using hpoke

theorem putc_spec (call : Call) (s : Session) (c : Char) (h : Inv s)
    (hok : s.out.len + 1 < s.out.size ∨ s.out.len + 1 + CHUNK ≤ INT_MAX) :
    ∃ out, snd_output_putc call.alloc s.out c = some (0, out) ∧ Inv ⟨out, s.written ++ [c]⟩ := by
  have hfits := h.fits
  have hlen := h.len
  have hsize := h.size
  have hlimit := h.limit
  -- The store itself, into any block that still holds the log.
  have hstore : ∀ (ptr : List Char) (size : Int), size = ptr.length →
      s.out.len + 1 < size → size ≤ INT_MAX → ptr.take s.written.length = s.written →
      ∃ ptr', poke ptr s.out.len [c] = some ptr' ∧
        Inv ⟨{ s.out with ptr := ptr', size := size, len := s.out.len + 1 }, s.written ++ [c]⟩ := by
    intro ptr size hs hroom hmax htake
    have hpoke := poke_of_fits ptr s.written.length [c] (by simp; omega)
    refine ⟨_, by rw [hlen]; exact hpoke, h.buffer, ?_, ?_, hroom, hmax, ?_, ?_⟩
    · simp only [List.length_append, List.length_take, List.length_drop, List.length_singleton]
      omega
    · have := h.nonneg; simp only; omega
    · simp [hlen]
    · simp only [hlen, htake]
      rw [show ((s.written.length : Int) + 1).toNat = (s.written ++ [c]).length by simp,
        List.take_left]
  simp only [snd_output_putc, h.buffer]
  by_cases hfull : s.out.len + 1 ≥ s.out.size
  · obtain ⟨buf, hresize, hbuf, htake⟩ :=
      resize_spec call.fresh s.out 1 h.nonneg (by omega) (hok.resolve_left (by omega))
    have hkeep := htake (by omega)
    rw [hlen, Int.toNat_natCast, h.take] at hkeep
    obtain ⟨ptr', hpoke, hinv⟩ := hstore buf _ hbuf.symm (by simp only [CHUNK]; omega)
      (hok.resolve_left (by omega)) hkeep
    refine ⟨_, ?_, hinv⟩
    rw [if_pos hfull, show resize call.alloc s.out 1 = _ from hresize]
    simp [hpoke]
  · obtain ⟨ptr', hpoke, hinv⟩ := hstore s.out.ptr _ hsize (by omega) hlimit h.take
    refine ⟨_, ?_, hinv⟩
    rw [if_neg hfull, hpoke, Option.map_some, ← h.buffer]

theorem not_isLog_of_len (s : Session) (h : s.out.len ≠ s.written.length) : ¬ IsLog s := by
  intro hlog
  simp only [IsLog, snd_output_buffer_string, Prod.mk.injEq] at hlog
  exact h hlog.1

theorem resize_len (alloc : Alloc Char) (out : SndOutput) (new err : Int) (out' : SndOutput)
    (h : resize alloc out new = some (err, out')) : out'.len = out.len := by
  simp only [resize] at h
  split at h
  · exact absurd h (by simp)
  · split at h <;> simp only [Option.some.injEq, Prod.mk.injEq] at h <;> rw [← h.2]

theorem printf_len (alloc : Alloc Char) (out out' : SndOutput) (text : List Char) (ret : Int)
    (h : snd_output_printf alloc out text = some (ret, out')) : out'.len = out.len := by
  simp only [snd_output_printf] at h
  split at h
  · simp only [Option.some.injEq, Prod.mk.injEq] at h
    rw [← h.2]
  · simp only [Option.bind_eq_some_iff] at h
    obtain ⟨⟨ret₁, ptr₁⟩, -, h⟩ := h
    split at h
    · simp only [Option.bind_eq_some_iff] at h
      obtain ⟨⟨err, out₁⟩, hresize, h⟩ := h
      have hlen := resize_len _ _ _ _ _ hresize
      split at h
      · simp only [Option.some.injEq, Prod.mk.injEq] at h
        rw [← h.2]; exact hlen
      · simp only [Option.map_eq_some_iff, Prod.mk.injEq] at h
        obtain ⟨_, -, -, rfl⟩ := h
        exact hlen
    · simp only [Option.some.injEq, Prod.mk.injEq] at h
      rw [← h.2]

theorem puts_len (alloc : Alloc Char) (out out' : SndOutput) (str : List Char) (ret : Int)
    (h : snd_output_puts alloc out str = some (ret, out')) : out'.len = out.len := by
  have hcopy : ∀ (out₁ : SndOutput) (len : Int),
      (poke out₁.ptr len (str ++ [NUL])).map (fun ptr => (len, { out₁ with ptr := ptr })) =
        some (ret, out') → out'.len = out₁.len := by
    intro out₁ len hc
    simp only [Option.map_eq_some_iff, Prod.mk.injEq] at hc
    obtain ⟨_, -, -, rfl⟩ := hc
    rfl
  simp only [snd_output_puts] at h
  split at h
  · simp only [Option.some.injEq, Prod.mk.injEq] at h
    rw [← h.2]
  · split at h
    · simp only [Option.bind_eq_some_iff] at h
      obtain ⟨⟨err, out₁⟩, hresize, h⟩ := h
      have hlen := resize_len _ _ _ _ _ hresize
      split at h
      · simp only [Option.some.injEq, Prod.mk.injEq] at h
        rw [← h.2]; exact hlen
      · rw [hcopy _ _ h]; exact hlen
    · exact hcopy _ _ h

theorem step_appends (s : Session) (call : Call) (h : Inv s) (hok : Appends s call) :
    ∃ s', step s call = some s' ∧ Inv s' := by
  cases hop : call.op with
  | printf text =>
    simp only [Appends, hop] at hok
    subst hok
    obtain ⟨out, hout, hinv⟩ := printf_empty_spec call.alloc s h
    exact ⟨⟨out, s.written⟩, by simp [step, hop, hout], hinv⟩
  | puts str =>
    simp only [Appends, hop] at hok
    obtain ⟨rfl, hhead⟩ := hok
    refine ⟨⟨{ s.out with ptr := NUL :: s.out.ptr.drop 1 }, s.written⟩,
      by simp [step, hop, puts_empty_spec call.alloc s h], h.buffer, ?_, h.nonneg, h.room,
      h.limit, h.len, ?_⟩
    · have := h.fits
      simp only [h.size, List.length_cons, List.length_drop]
      omega
    · -- The NUL lands outside of an empty log, or on the NUL that is already there.
      have htext := h.text
      rcases hhead with hzero | hnul
      · simp only [hzero] at htext ⊢
        simpa using htext
      · cases hptr : s.out.ptr with
        | nil => simp [hptr] at hnul
        | cons c rest =>
          simp only [hptr, List.head?_cons, Option.some.injEq] at hnul
          subst hnul
          simpa [hptr] using htext
  | putc c =>
    simp only [Appends, hop] at hok
    obtain ⟨out, hout, hinv⟩ := putc_spec call s c h hok
    exact ⟨⟨out, s.written ++ [c]⟩, by simp [step, hop, hout], hinv⟩
  | flush =>
    refine ⟨⟨{ s.out with len := 0 }, []⟩, by simp [step, hop, snd_output_flush, h.buffer],
      h.buffer, h.size, Int.le_refl _, ?_, h.limit, rfl, rfl⟩
    have := h.fits; have := h.size; simp only; omega

theorem step_not_appends (s s' : Session) (call : Call) (h : Inv s) (hbad : ¬ Appends s call)
    (hstep : step s call = some s') : ¬ IsLog s' := by
  have hlen := h.len
  cases hop : call.op with
  | printf text =>
    simp only [Appends, hop] at hbad
    simp only [step, hop, Option.map_eq_some_iff, Prod.exists] at hstep
    obtain ⟨ret, out', hout, rfl⟩ := hstep
    apply not_isLog_of_len
    have := printf_len _ _ _ _ _ hout
    have := List.length_pos_iff.mpr hbad
    simp only [List.length_append]
    omega
  | puts str =>
    simp only [Appends, hop, not_and_or, not_or] at hbad
    simp only [step, hop, Option.map_eq_some_iff, Prod.exists] at hstep
    obtain ⟨ret, out', hout, rfl⟩ := hstep
    by_cases hstr : str = []
    · -- The empty string: its NUL replaces the first character of the log.
      subst hstr
      obtain ⟨hpos, hhead⟩ := hbad.resolve_left (by simp)
      rw [puts_empty_spec call.alloc s h] at hout
      simp only [Option.some.injEq, Prod.mk.injEq] at hout
      obtain ⟨-, rfl⟩ := hout
      intro hlog
      simp only [IsLog, snd_output_buffer_string, List.append_nil, Prod.mk.injEq] at hlog
      have htext := h.text
      have hnonneg := h.nonneg
      obtain ⟨n, hn⟩ : ∃ n, s.out.len.toNat = n + 1 := ⟨s.out.len.toNat - 1, by omega⟩
      rw [hn] at hlog htext
      cases hptr : s.out.ptr with
      | nil => have := h.fits; simp [hptr] at this
      | cons c rest =>
        rw [hptr, ← hlog.2] at htext
        simp only [List.take_succ_cons, List.cons.injEq] at htext
        rw [hptr, List.head?_cons, Option.some.injEq] at hhead
        exact hhead htext.1
    · apply not_isLog_of_len
      have := puts_len _ _ _ _ _ hout
      have := List.length_pos_iff.mpr hstr
      simp only [List.length_append]
      omega
  | putc c =>
    -- The size overflows, and the step has no outcome.
    simp only [Appends, hop, not_or] at hbad
    simp only [step, hop, snd_output_putc, h.buffer] at hstep
    rw [if_pos (by omega), resize, if_pos (by omega)] at hstep
    simp at hstep
  | flush => simp [Appends, hop] at hbad

theorem snd_output_buffer_open_spec (fresh : Nat → Nat → Char) :
    ∃ out, snd_output_buffer_open true (fun n => some (fresh n)) = some (0, some out) ∧
      Inv ⟨out, []⟩ ∧ out.size = CHUNK := by
  obtain ⟨buf, hresize, hbuf, -⟩ := resize_spec fresh
    { mode := .buffer, ptr := [], stream := [], len := 0, size := 0 } 0
    (Int.le_refl _) (Int.le_refl _) (by simp [CHUNK, INT_MAX])
  refine ⟨_, by simp only [snd_output_buffer_open, if_true, hresize]; rfl,
    ⟨rfl, hbuf.symm, Int.le_refl _, ?_, ?_, rfl, rfl⟩, ?_⟩ <;> simp [CHUNK, INT_MAX]

/-! ## Whole runs -/

/-- On an opened buffer, the buffer is the log after every call exactly when every call appends. -/
theorem buffer_string_is_log_iff (fresh : Nat → Nat → Char) :
    ∃ out, snd_output_buffer_open true (fun n => some (fresh n)) = some (0, some out) ∧
      ∀ calls : List Call,
        AllStates step IsLog ⟨out, []⟩ calls ↔ AllSteps step Appends ⟨out, []⟩ calls := by
  obtain ⟨out, hopen, hinv, -⟩ := snd_output_buffer_open_spec fresh
  refine ⟨out, hopen, fun calls => ?_⟩
  apply allStates_iff_allSteps Inv IsLog (fun _ _ => True) Appends (fun s h => h.isLog)
  · intro s call h _ hok
    exact step_appends s call h hok
  · intro s call s' h _ hbad hstep
    exact step_not_appends s s' call h hbad hstep
  · exact hinv
  · exact allSteps_of_forall _ _ calls fun _ _ => trivial

/-- `printf` of one letter succeeds, and the returned string is empty. -/
theorem printf_is_lost :
    ∃ out, snd_output_buffer_open true (fun _ => some fun _ => NUL) = some (0, some out) ∧
      ∃ out', snd_output_printf (fun _ => some fun _ => NUL) out ['a'] = some (1, out') ∧
        snd_output_buffer_string out' = (0, []) ∧
        ¬ AllStates step IsLog ⟨out, []⟩ [⟨.printf ['a'], fun _ _ => NUL⟩] := by
  obtain ⟨out, hopen, h, hsize⟩ := snd_output_buffer_open_spec fun _ _ => NUL
  have hlen : out.len = 0 := h.len
  have hptr : (out.ptr.length : Int) = 4000 := h.size.symm.trans hsize
  have hpoke := poke_of_fits out.ptr 0 ['a', NUL] (by simp; omega)
  obtain ⟨out', hout⟩ : ∃ out', snd_output_printf (fun _ => some fun _ => NUL) out ['a'] =
      some (1, out') := by
    have hbuffer : out.mode = .buffer := h.buffer
    simp only [Int.natCast_zero] at hpoke
    simp only [snd_output_printf, hbuffer]
    simp [vsnprintf, hlen, hsize, CHUNK, INT_MAX, hpoke]
  have hlen' := printf_len _ _ _ _ _ hout
  rw [hlen] at hlen'
  refine ⟨out, hopen, out', hout, by simp [snd_output_buffer_string, hlen'], ?_⟩
  rintro ⟨-, s', hs', hlog⟩
  have hcall : snd_output_printf (Call.alloc ⟨.printf ['a'], fun _ _ => NUL⟩) out ['a'] =
      some (1, out') := hout
  simp only [step, hcall, Option.map_some, Option.some.injEq] at hs'
  subst hs'
  simp [AllStates, IsLog, snd_output_buffer_string, hlen'] at hlog

end Salsa.Output
