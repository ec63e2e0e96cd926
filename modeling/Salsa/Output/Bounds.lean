import Salsa.Output
import Mathlib.Algebra.GroupWithZero.Nat

/-!
# Bounds of the string output

Here any reallocation may fail. `puts` writes at the length of its own string and not at `len`; the room that it
tested for is behind `len`.
-/

open Memory Run

namespace Salsa.Output

/-- One call, and what the allocator answers. -/
structure Attempt where
  op : Op
  alloc : Alloc Char

/-- The length of what is written. -/
def Op.length : Op → Nat
  | .printf text => text.length
  | .puts str => str.length
  | .putc _ => 1
  | .flush => 0

/-- An output; and what it was before the last call, if that call has failed. -/
structure Watched where
  out : SndOutput
  before : Option SndOutput

def perform (alloc : Alloc Char) (out : SndOutput) : Op → Option (Int × SndOutput)
  | .printf text => snd_output_printf alloc out text
  | .puts str => snd_output_puts alloc out str
  | .putc c => snd_output_putc alloc out c
  | .flush => some (snd_output_flush out)

/-- It is `none` where a byte is written outside of the block. -/
def attempt (s : Watched) (a : Attempt) : Option Watched :=
  (perform a.alloc s.out a.op).map fun r => ⟨r.2, if r.1 = -ENOMEM then some s.out else none⟩

/-- What a failed call has to leave. -/
structure Sound (contents : SndOutput → List Char) (s : Watched) : Prop where
  nonneg : 0 ≤ s.out.len
  len : s.out.len ≤ s.out.size
  size : s.out.size = s.out.ptr.length
  kept : ∀ before, s.before = some before → s.out.len = before.len ∧ contents s.out = contents before

/-- The contents up to `len`, which `snd_output_buffer_string` hands out. -/
def text (out : SndOutput) : List Char := (snd_output_buffer_string out).2

/-- The size that `resize` asks for. -/
def request (out : SndOutput) (new : Nat) : Nat := (out.len + new + CHUNK).toNat

/-- The string of `puts` ends inside of the block that it is written to. -/
def Fits (s : Watched) (a : Attempt) : Prop :=
  match a.op with
  | .puts str =>
    if str.length < s.out.size - s.out.len then 2 * (str.length : Int) + 1 ≤ s.out.size
    else a.alloc (request s.out str.length) = none ∨ str.length + 1 ≤ s.out.len + CHUNK
  | _ => True

/-- `printf` that fails has not left the beginning of its text behind `len`. -/
def Unmarked (s : Watched) (a : Attempt) : Prop :=
  match a.op with
  | .printf text =>
    text.length < s.out.size - s.out.len ∨ a.alloc (request s.out text.length) ≠ none ∨ s.out.size = s.out.len ∨
      s.out.ptr.drop s.out.len.toNat = text.take (s.out.size - s.out.len - 1).toNat ++ [NUL]
  | _ => True

/-! ## The writers -/

structure Held (out : SndOutput) : Prop where
  buffer : out.mode = .buffer
  nonneg : 0 ≤ out.len
  len : out.len ≤ out.size
  size : out.size = out.ptr.length

theorem request_eq (out : SndOutput) (new : Nat) (hlen : 0 ≤ out.len) (hmax : out.len + new + CHUNK ≤ INT_MAX) :
    ((out.len + new + CHUNK) % 18446744073709551616).toNat = request out new := by
  unfold request
  simp only [CHUNK, INT_MAX] at *
  omega

theorem resize_fails (alloc : Alloc Char) (out : SndOutput) (new : Nat) (hlen : 0 ≤ out.len)
    (hmax : out.len + new + CHUNK ≤ INT_MAX) (halloc : alloc (request out new) = none) :
    resize alloc out new = some (-ENOMEM, out) := by
  unfold resize realloc
  rw [if_neg (by omega), request_eq out new hlen hmax, halloc]
  rfl

theorem resize_works (alloc : Alloc Char) (out : SndOutput) (new : Nat) (h : Held out)
    (hmax : out.len + new + CHUNK ≤ INT_MAX) (halloc : alloc (request out new) ≠ none) :
    ∃ buf, resize alloc out new = some (0, { out with ptr := buf, size := out.len + new + CHUNK }) ∧
      Held { out with ptr := buf, size := out.len + new + CHUNK } := by
  obtain ⟨fresh, hfresh⟩ := Option.ne_none_iff_exists'.mp halloc
  have hnonneg := h.nonneg
  obtain ⟨buf, hbuf⟩ : ∃ buf, realloc alloc out.ptr (request out new) = some buf := by
    unfold realloc
    rw [hfresh]
    exact ⟨_, rfl⟩
  refine ⟨buf, ?_, h.buffer, h.nonneg, ?_, ?_⟩
  · unfold resize
    rw [if_neg (by omega), request_eq out new h.nonneg hmax, hbuf]
  · simp only [CHUNK]
    omega
  · rw [realloc_length _ _ _ _ hbuf]
    simp only [request, CHUNK]
    omega

/-- It writes behind `ofs` only, and up to the end where the text is cut. -/
theorem vsnprintf_spec (block : List Char) (ofs n : Int) (text : List Char) (hofs : 0 ≤ ofs) (hn : 0 ≤ n)
    (hblock : ofs + n = block.length) (hmax : text.length ≤ INT_MAX) :
    ∃ block', vsnprintf block ofs n text = some ((text.length : Int), block') ∧ block'.length = block.length ∧
      block'.take ofs.toNat = block.take ofs.toNat ∧
      (n ≤ text.length → (block' = block ↔ n = 0 ∨ block.drop ofs.toNat = text.take (n - 1).toNat ++ [NUL])) := by
  unfold vsnprintf
  rw [if_pos hmax]
  dsimp only
  by_cases hzero : n ≤ 0
  · rw [if_pos hzero]
    exact ⟨block, rfl, rfl, rfl, fun _ => iff_of_true rfl (.inl (by omega))⟩
  · have hcut : (text.take (n - 1).toNat ++ [NUL]).length ≤ n.toNat := by
      simp only [List.length_append, List.length_take, List.length_singleton]
      omega
    have hpoke := poke_of_fits block ofs.toNat (text.take (n - 1).toNat ++ [NUL]) (by omega)
    rw [Int.toNat_of_nonneg hofs] at hpoke
    rw [if_neg hzero, hpoke]
    refine ⟨_, rfl, ?_, ?_, ?_⟩
    · simp only [List.length_append, List.length_take, List.length_drop, List.length_singleton] at hcut ⊢
      omega
    · rw [List.append_assoc, take_poke _ _ _ (by omega)]
    · intro hlong
      have hfull : ofs.toNat + (text.take (n - 1).toNat ++ [NUL]).length = block.length := by
        simp only [List.length_append, List.length_take, List.length_singleton]
        omega
      rw [hfull, List.drop_length, List.append_nil]
      constructor
      · intro heq
        right
        conv_lhs => rw [← heq]
        rw [List.drop_left' (by simp; omega)]
      · rintro (hn0 | hdrop)
        · omega
        · rw [← hdrop, List.take_append_drop]

/-- An outcome within the bounds; a failed call leaves the text, and the block too where `unmarked`. -/
structure Outcome (out : SndOutput) (unmarked : Prop) (r : Int × SndOutput) : Prop where
  held : Held r.2
  failed : r.1 = -ENOMEM → r.2.len = out.len ∧ text r.2 = text out ∧ (r.2.ptr = out.ptr ↔ unmarked)
  done : r.1 ≠ -ENOMEM → unmarked

theorem Outcome.of_done {out : SndOutput} {unmarked : Prop} {r : Int × SndOutput} (hheld : Held r.2) (hret : 0 ≤ r.1)
    (hunmarked : unmarked) : Outcome out unmarked r := by
  refine ⟨hheld, fun hfailed => ?_, fun _ => hunmarked⟩
  rw [hfailed] at hret
  exact absurd hret (by decide)

theorem Outcome.of_refused {out : SndOutput} {unmarked : Prop} (hheld : Held out) (hunmarked : unmarked) :
    Outcome out unmarked (-ENOMEM, out) :=
  ⟨hheld, fun _ => ⟨rfl, rfl, iff_of_true rfl hunmarked⟩, fun h => absurd rfl h⟩

theorem toInt_length (str : List Char) (len : Int) (hlen : 0 ≤ len) (hmax : len + str.length + CHUNK ≤ INT_MAX) :
    toInt str.length = str.length := by
  unfold toInt
  simp only [CHUNK, INT_MAX] at hmax
  omega

/-- `strcpy(out->ptr + len, str)` takes the bytes from `len` to `2 * len`. -/
theorem strcpy_iff (block str : List Char) :
    (poke block str.length (str ++ [NUL]) = none ↔ (block.length : Int) < 2 * (str.length : Int) + 1) ∧
      ∀ block', poke block str.length (str ++ [NUL]) = some block' → block'.length = block.length := by
  by_cases hfits : str.length + (str ++ [NUL]).length ≤ block.length
  · rw [poke_of_fits _ _ _ hfits]
    simp only [List.length_append, List.length_singleton] at hfits
    refine ⟨iff_of_false (Option.some_ne_none _) (by omega), fun block' hblock => ?_⟩
    rw [← Option.some.inj hblock]
    simp only [List.length_append, List.length_take, List.length_drop, List.length_singleton]
    omega
  · unfold poke
    rw [if_neg (by omega)]
    simp only [List.length_append, List.length_singleton] at hfits
    exact ⟨iff_of_true rfl (by omega), fun block' hblock => absurd hblock.symm (Option.some_ne_none _)⟩

section Writers

variable (alloc : Alloc Char) (out : SndOutput) (h : Held out)

include h

theorem printf_outcome (str : List Char) (hmax : out.len + str.length + CHUNK ≤ INT_MAX) (before : Option SndOutput) :
    ∃ r, snd_output_printf alloc out str = some r ∧ Outcome out (Unmarked ⟨out, before⟩ ⟨.printf str, alloc⟩) r := by
  have hnonneg := h.nonneg
  have hlen := h.len
  have hsize := h.size
  have hint : (str.length : Int) ≤ INT_MAX := by
    simp only [CHUNK] at hmax
    omega
  obtain ⟨block, hfirst, hblock, htake, hsame⟩ :=
    vsnprintf_spec out.ptr out.len (out.size - out.len) str hnonneg (by omega) (by omega) hint
  have hheld : Held { out with ptr := block } := ⟨h.buffer, hnonneg, hlen, by rw [hsize, hblock]⟩
  obtain ⟨mode, ptr, stream, len, size⟩ := out
  obtain rfl : mode = .buffer := h.buffer
  dsimp only at *
  unfold snd_output_printf
  dsimp only
  rw [hfirst, Option.bind_some]
  dsimp only
  by_cases hroom : (str.length : Int) ≥ size - len
  · rw [if_pos hroom]
    by_cases halloc : alloc (request ⟨.buffer, ptr, stream, len, size⟩ str.length) = none
    · rw [resize_fails alloc ⟨.buffer, block, stream, len, size⟩ str.length hnonneg hmax halloc]
      refine ⟨_, rfl, hheld, fun _ => ⟨rfl, htake, (hsame hroom).trans ?_⟩, fun hret => absurd rfl hret⟩
      unfold Unmarked
      dsimp only
      rw [Int.sub_eq_zero, or_iff_right (show ¬ (str.length : Int) < size - len by omega),
        or_iff_right (not_not_intro halloc)]
    · obtain ⟨buf, hresize, hbuf⟩ := resize_works alloc ⟨.buffer, block, stream, len, size⟩ str.length hheld hmax halloc
      have hbufsize := hbuf.size
      dsimp only at hbufsize
      obtain ⟨block', hsecond, hblock', -, -⟩ := vsnprintf_spec buf len (len + str.length + CHUNK - len) str hnonneg
        (by simp only [CHUNK]; omega) (by omega) hint
      rw [hresize, Option.bind_some]
      dsimp only
      rw [if_neg (by decide), hsecond]
      refine ⟨_, rfl, Outcome.of_done ⟨rfl, hnonneg, hbuf.len, ?_⟩ (Int.natCast_nonneg _) (.inr (.inl halloc))⟩
      rw [hblock']
      exact hbufsize
  · rw [if_neg hroom]
    exact ⟨_, rfl, Outcome.of_done hheld (Int.natCast_nonneg _) (.inl (by dsimp only; omega))⟩

theorem puts_outcome (str : List Char) (hmax : out.len + str.length + CHUNK ≤ INT_MAX) (before : Option SndOutput)
    (hfits : Fits ⟨out, before⟩ ⟨.puts str, alloc⟩) :
    ∃ r, snd_output_puts alloc out str = some r ∧ Outcome out True r := by
  have hsize := h.size
  have hnonneg := h.nonneg
  have hlen := toInt_length str out.len hnonneg hmax
  obtain ⟨mode, ptr, stream, len, size⟩ := out
  obtain rfl : mode = .buffer := h.buffer
  -- The copy into any block that it fits in.
  have hcopy (block : List Char) (n : Int) (hblock : Held ⟨.buffer, block, stream, len, n⟩)
      (hlong : 2 * (str.length : Int) + 1 ≤ n) :
      ∃ block', poke block str.length (str ++ [NUL]) = some block' ∧ Held ⟨.buffer, block', stream, len, n⟩ := by
    have hn := hblock.size
    dsimp only at hn
    obtain ⟨hnone, hkept⟩ := strcpy_iff block str
    obtain ⟨block', hpoke⟩ := Option.ne_none_iff_exists'.mp (mt hnone.mp (by omega))
    refine ⟨block', hpoke, rfl, hnonneg, hblock.len, ?_⟩
    rw [hkept block' hpoke]
    exact hn
  unfold Fits at hfits
  unfold snd_output_puts
  dsimp only at *
  rw [hlen]
  by_cases hroom : (str.length : Int) < size - len
  · rw [if_pos hroom] at hfits
    obtain ⟨block, hpoke, hblock⟩ := hcopy ptr size h hfits
    rw [if_neg (by omega), hpoke]
    exact ⟨_, rfl, Outcome.of_done hblock (Int.natCast_nonneg _) trivial⟩
  · rw [if_neg hroom] at hfits
    rw [if_pos (by omega)]
    by_cases halloc : alloc (request ⟨.buffer, ptr, stream, len, size⟩ str.length) = none
    · rw [resize_fails alloc ⟨.buffer, ptr, stream, len, size⟩ str.length hnonneg hmax halloc]
      exact ⟨_, rfl, Outcome.of_refused h trivial⟩
    · obtain ⟨buf, hresize, hbuf⟩ := resize_works alloc ⟨.buffer, ptr, stream, len, size⟩ str.length h hmax halloc
      have hlong := hfits.resolve_left halloc
      obtain ⟨block, hpoke, hblock⟩ := hcopy buf (len + str.length + CHUNK) hbuf (by omega)
      rw [hresize, Option.bind_some]
      dsimp only
      rw [if_neg (by decide), hpoke]
      exact ⟨_, rfl, Outcome.of_done hblock (Int.natCast_nonneg _) trivial⟩

theorem puts_outside (str : List Char) (hmax : out.len + str.length + CHUNK ≤ INT_MAX) (before : Option SndOutput)
    (hfits : ¬ Fits ⟨out, before⟩ ⟨.puts str, alloc⟩) : snd_output_puts alloc out str = none := by
  have hsize := h.size
  have hlen := toInt_length str out.len h.nonneg hmax
  obtain ⟨mode, ptr, stream, len, size⟩ := out
  obtain rfl : mode = .buffer := h.buffer
  unfold Fits at hfits
  unfold snd_output_puts
  dsimp only at *
  rw [hlen]
  by_cases hroom : (str.length : Int) < size - len
  · rw [if_pos hroom] at hfits
    rw [if_neg (by omega), (strcpy_iff ptr str).1.mpr (by omega)]
    rfl
  · rw [if_neg hroom, not_or] at hfits
    obtain ⟨halloc, hlong⟩ := hfits
    obtain ⟨buf, hresize, hbuf⟩ := resize_works alloc ⟨.buffer, ptr, stream, len, size⟩ str.length h hmax halloc
    have hbufsize := hbuf.size
    dsimp only at hbufsize
    rw [if_pos (by omega), hresize, Option.bind_some]
    dsimp only
    rw [if_neg (by decide), (strcpy_iff buf str).1.mpr (by omega)]
    rfl

theorem putc_outcome (c : Char) (hmax : out.len + 1 + CHUNK ≤ INT_MAX) :
    ∃ r, snd_output_putc alloc out c = some r ∧ Outcome out True r := by
  have hnonneg := h.nonneg
  have hsize := h.size
  obtain ⟨mode, ptr, stream, len, size⟩ := out
  obtain rfl : mode = .buffer := h.buffer
  dsimp only at *
  have hstore (block : List Char) (n : Int) (hblock : (block.length : Int) = n) (hroom : len + 1 < n) :
      ∃ block', poke block len [c] = some block' ∧ Held ⟨.buffer, block', stream, len + 1, n⟩ := by
    have hpoke := poke_of_fits block len.toNat [c] (by simp only [List.length_singleton]; omega)
    rw [Int.toNat_of_nonneg hnonneg] at hpoke
    refine ⟨_, hpoke, rfl, ?_, Int.le_of_lt hroom, ?_⟩
    · dsimp only
      omega
    · simp only [List.length_append, List.length_take, List.length_drop, List.length_singleton]
      omega
  unfold snd_output_putc
  dsimp only
  by_cases hroom : len + 1 ≥ size
  · rw [if_pos hroom]
    by_cases halloc : alloc (request ⟨.buffer, ptr, stream, len, size⟩ 1) = none
    · have hresize := resize_fails alloc ⟨.buffer, ptr, stream, len, size⟩ 1 hnonneg hmax halloc
      rw [Int.natCast_one] at hresize
      rw [hresize]
      exact ⟨_, rfl, Outcome.of_refused h trivial⟩
    · obtain ⟨buf, hresize, hbuf⟩ := resize_works alloc ⟨.buffer, ptr, stream, len, size⟩ 1 h hmax halloc
      have hbufsize := hbuf.size
      rw [Int.natCast_one] at hresize hbufsize
      obtain ⟨block, hpoke, hblock⟩ := hstore buf (len + 1 + CHUNK) hbufsize.symm (by simp only [CHUNK]; omega)
      rw [hresize, Option.bind_some]
      dsimp only
      rw [if_neg (by decide), hpoke]
      exact ⟨_, rfl, Outcome.of_done hblock (Int.le_refl 0) trivial⟩
  · rw [if_neg hroom]
    obtain ⟨block, hpoke, hblock⟩ := hstore ptr size hsize.symm (by omega)
    rw [hpoke]
    exact ⟨_, rfl, Outcome.of_done hblock (Int.le_refl 0) trivial⟩

end Writers

/-! ## Runs -/

theorem attempt_outcome (s : Watched) (a : Attempt) (h : Held s.out)
    (hmax : s.out.len + a.op.length + CHUNK ≤ INT_MAX) (hfits : Fits s a) :
    ∃ r, perform a.alloc s.out a.op = some r ∧ Outcome s.out (Unmarked s a) r := by
  obtain ⟨out, before⟩ := s
  obtain ⟨op, alloc⟩ := a
  cases op with
  | printf str => exact printf_outcome alloc out h str hmax before
  | puts str => exact puts_outcome alloc out h str hmax before hfits
  | putc c => exact putc_outcome alloc out h c hmax
  | flush =>
    have hflush : snd_output_flush out = (0, { out with len := 0 }) := by
      unfold snd_output_flush
      rw [h.buffer]
    refine ⟨_, rfl, ?_⟩
    rw [hflush]
    exact Outcome.of_done ⟨h.buffer, Int.le_refl 0, Int.le_trans h.nonneg h.len, h.size⟩ (Int.le_refl 0) trivial

theorem attempt_outside (s : Watched) (a : Attempt) (h : Held s.out)
    (hmax : s.out.len + a.op.length + CHUNK ≤ INT_MAX) (hfits : ¬ Fits s a) : attempt s a = none := by
  obtain ⟨out, before⟩ := s
  obtain ⟨op, alloc⟩ := a
  cases op with
  | puts str =>
    unfold attempt perform
    dsimp only
    rw [puts_outside alloc out h str hmax before hfits]
    rfl
  | printf str => exact absurd trivial hfits
  | putc c => exact absurd trivial hfits
  | flush => exact absurd trivial hfits

/-- One call whose string fits. -/
theorem attempt_spec (s : Watched) (a : Attempt) (h : Held s.out) (hmax : s.out.len + a.op.length + CHUNK ≤ INT_MAX)
    (hfits : Fits s a) :
    ∃ s', attempt s a = some s' ∧ Held s'.out ∧
      (∀ before, s'.before = some before → s'.out.len = before.len ∧ text s'.out = text before) ∧
      ((∀ before, s'.before = some before → s'.out.ptr = before.ptr) ↔ Unmarked s a) := by
  obtain ⟨⟨ret, out⟩, hperform, hheld, hfailed, hdone⟩ := attempt_outcome s a h hmax hfits
  dsimp only at hheld hfailed hdone
  unfold attempt
  rw [hperform]
  refine ⟨_, rfl, hheld, ?_⟩
  dsimp only
  by_cases hret : ret = -ENOMEM
  · rw [if_pos hret]
    obtain ⟨hlen, htext, hptr⟩ := hfailed hret
    constructor
    · rintro before ⟨⟩
      exact ⟨hlen, htext⟩
    · rw [← hptr]
      exact ⟨fun hsame => hsame s.out rfl, fun hsame before hbefore => Option.some.inj hbefore ▸ hsame⟩
  · rw [if_neg hret]
    exact ⟨fun before hbefore => absurd hbefore.symm (Option.some_ne_none _),
      iff_of_true (fun before hbefore => absurd hbefore.symm (Option.some_ne_none _)) (hdone hret)⟩

theorem putc_len (alloc : Alloc Char) (out out' : SndOutput) (c : Char) (ret : Int)
    (h : snd_output_putc alloc out c = some (ret, out')) : out'.len = out.len ∨ out'.len = out.len + 1 := by
  have hstore (o : SndOutput)
      (ho : (poke o.ptr o.len [c]).map (fun ptr => ((0 : Int), { o with ptr := ptr, len := o.len + 1 })) =
        some (ret, out')) : out'.len = o.len + 1 := by
    obtain ⟨ptr, -, heq⟩ := Option.map_eq_some_iff.mp ho
    obtain ⟨-, rfl⟩ := Prod.mk.inj heq
    rfl
  unfold snd_output_putc at h
  dsimp only at h
  split at h
  · obtain ⟨-, rfl⟩ := Prod.mk.inj (Option.some.inj h)
    exact .inl rfl
  · split at h
    · obtain ⟨⟨err, o⟩, hresize, hcopy⟩ := Option.bind_eq_some_iff.mp h
      have hlen := resize_len alloc out 1 err o hresize
      dsimp only at hcopy
      split at hcopy
      · obtain ⟨-, rfl⟩ := Prod.mk.inj (Option.some.inj hcopy)
        exact .inl hlen
      · exact .inr (hlen ▸ hstore o hcopy)
    · exact .inr (hstore out h)

theorem perform_len (alloc : Alloc Char) (out : SndOutput) (op : Op) (r : Int × SndOutput) (hlen : 0 ≤ out.len)
    (h : perform alloc out op = some r) : 0 ≤ r.2.len ∧ r.2.len ≤ out.len + op.length := by
  obtain ⟨ret, out'⟩ := r
  cases op with
  | printf str =>
    rw [printf_len alloc out out' str ret h]
    exact ⟨hlen, Int.le_add_of_nonneg_right (Int.natCast_nonneg _)⟩
  | puts str =>
    rw [puts_len alloc out out' str ret h]
    exact ⟨hlen, Int.le_add_of_nonneg_right (Int.natCast_nonneg _)⟩
  | putc c =>
    simp only [Op.length]
    rcases putc_len alloc out out' c ret h with hsame | hnext <;> omega
  | flush =>
    obtain ⟨-, rfl⟩ := Prod.mk.inj (Option.some.inj h)
    dsimp only
    split
    · exact ⟨hlen, Int.le_add_of_nonneg_right (Int.natCast_nonneg _)⟩
    · exact ⟨Int.le_refl 0, Int.add_nonneg hlen (Int.natCast_nonneg _)⟩

/-- The total length bounds each request. -/
theorem total_bounds (s : Watched) (calls : List Attempt) (hlen : 0 ≤ s.out.len)
    (h : s.out.len + (calls.map fun a => a.op.length).sum + CHUNK ≤ INT_MAX) :
    AllSteps attempt (fun s a => s.out.len + a.op.length + CHUNK ≤ INT_MAX) s calls := by
  induction calls generalizing s with
  | nil => trivial
  | cons a calls ih =>
    rw [List.map_cons, List.sum_cons, Int.natCast_add] at h
    refine ⟨by omega, fun s' hs' => ?_⟩
    obtain ⟨r, hr, rfl⟩ := Option.map_eq_some_iff.mp hs'
    obtain ⟨hnonneg, hle⟩ := perform_len a.alloc s.out a.op r hlen hr
    exact ih _ hnonneg (by dsimp only; omega)

theorem Sound.of_held {contents : SndOutput → List Char} {s : Watched} (h : Held s.out)
    (hkept : ∀ before, s.before = some before → s.out.len = before.len ∧ contents s.out = contents before) :
    Sound contents s :=
  ⟨h.nonneg, h.len, h.size, hkept⟩

theorem opened (alloc : Alloc Char) (ret : Int) (out : SndOutput)
    (h : snd_output_buffer_open true alloc = some (ret, some out)) : Held out ∧ out.len = 0 := by
  have hheld : Held ⟨.buffer, [], [], 0, 0⟩ := ⟨rfl, Int.le_refl 0, Int.le_refl 0, rfl⟩
  obtain ⟨⟨err, out'⟩, hresize, heq⟩ := Option.map_eq_some_iff.mp h
  obtain ⟨rfl, hout⟩ := Prod.mk.inj heq
  obtain rfl := Option.some.inj hout
  by_cases halloc : alloc (request ⟨.buffer, [], [], 0, 0⟩ 0) = none
  · have hfails := resize_fails alloc ⟨.buffer, [], [], 0, 0⟩ 0 (Int.le_refl 0) (by decide) halloc
    obtain ⟨-, rfl⟩ := Prod.mk.inj (Option.some.inj (hresize.symm.trans hfails))
    exact ⟨hheld, rfl⟩
  · obtain ⟨buf, hworks, hbuf⟩ := resize_works alloc ⟨.buffer, [], [], 0, 0⟩ 0 hheld (by decide) halloc
    obtain ⟨-, rfl⟩ := Prod.mk.inj (Option.some.inj (hresize.symm.trans hworks))
    exact ⟨hbuf, rfl⟩

/-- Every write is within the block as long as the strings of `puts` are, after a failed opening too. What was written
is kept by the calls that fail; and so is all of the block, as long as `printf` does not mark it. -/
theorem writes_in_bounds_iff (alloc : Alloc Char) (ret : Int) (out : SndOutput) (calls : List Attempt)
    (hopen : snd_output_buffer_open true alloc = some (ret, some out))
    (htotal : (calls.map fun a => a.op.length).sum < 2147483648 - 4000) :
    (AllStates attempt (Sound text) ⟨out, none⟩ calls ↔ AllSteps attempt Fits ⟨out, none⟩ calls) ∧
      (AllStates attempt (Sound SndOutput.ptr) ⟨out, none⟩ calls ↔
        AllSteps attempt (fun s a => Fits s a ∧ Unmarked s a) ⟨out, none⟩ calls) := by
  obtain ⟨hheld, hlen⟩ := opened alloc ret out hopen
  have hallowed := total_bounds ⟨out, none⟩ calls hheld.nonneg (by simp only [hlen, CHUNK, INT_MAX]; omega)
  have hfirst (contents : SndOutput → List Char) : Held out ∧ Sound contents ⟨out, none⟩ :=
    ⟨hheld, Sound.of_held hheld fun before hbefore => absurd hbefore.symm (Option.some_ne_none _)⟩
  constructor
  · apply allStates_iff_allSteps (fun s => Held s.out ∧ Sound text s) _ _ _ (fun s h => h.2)
    · intro s a h hmax hfits
      obtain ⟨s', hs', hheld', hkept, -⟩ := attempt_spec s a h.1 hmax hfits
      exact ⟨s', hs', hheld', Sound.of_held hheld' hkept⟩
    · intro s a s' h hmax hbad hs'
      rw [attempt_outside s a h.1 hmax hbad] at hs'
      cases hs'
    · exact hfirst text
    · exact hallowed
  · apply allStates_iff_allSteps (fun s => Held s.out ∧ Sound SndOutput.ptr s) _ _ _ (fun s h => h.2)
    · rintro s a h hmax ⟨hfits, hunmarked⟩
      obtain ⟨s', hs', hheld', hkept, hptr⟩ := attempt_spec s a h.1 hmax hfits
      exact ⟨s', hs', hheld', Sound.of_held hheld' fun before hbefore =>
        ⟨(hkept before hbefore).1, hptr.mpr hunmarked before hbefore⟩⟩
    · intro s a s' h hmax hbad hs' hsound
      by_cases hfits : Fits s a
      · obtain ⟨t, ht, -, -, hptr⟩ := attempt_spec s a h.1 hmax hfits
        obtain rfl : s' = t := Option.some.inj (hs'.symm.trans ht)
        exact hbad ⟨hfits, hptr.mp fun before hbefore => (hsound.kept before hbefore).2⟩
      · rw [attempt_outside s a h.1 hmax hfits] at hs'
        cases hs'
    · exact hfirst SndOutput.ptr
    · exact hallowed

/-- Three calls that write, and that find memory for what they write. -/
def written : List Attempt :=
  [⟨.puts ['a', 'b', 'c'], fun _ => some fun _ => NUL⟩, ⟨.printf ['d', 'e'], fun _ => some fun _ => NUL⟩,
    ⟨.putc 'f', fun _ => some fun _ => NUL⟩]

theorem writes_in_bounds_iff_written :
    ∃ out, snd_output_buffer_open true (fun _ => some fun _ => NUL) = some (0, some out) ∧
      AllStates attempt (Sound text) ⟨out, none⟩ written ∧
      AllStates attempt (Sound SndOutput.ptr) ⟨out, none⟩ written := by
  obtain ⟨out, hopen, -, hsize⟩ := snd_output_buffer_open_spec fun _ _ => NUL
  obtain ⟨-, hlen⟩ := opened _ _ _ hopen
  have hfits : Fits ⟨out, none⟩ ⟨.puts ['a', 'b', 'c'], fun _ => some fun _ => NUL⟩ := by
    unfold Fits
    dsimp only
    rw [hlen, hsize]
    decide
  have hsound := writes_in_bounds_iff (fun _ => some fun _ => NUL) 0 out written hopen (by decide)
  refine ⟨out, hopen, hsound.1.mpr ?_, hsound.2.mpr ?_⟩
  · exact ⟨hfits, fun _ _ => ⟨trivial, fun _ _ => ⟨trivial, fun _ _ => trivial⟩⟩⟩
  · refine ⟨⟨hfits, trivial⟩, fun _ _ => ⟨⟨trivial, ?_⟩, fun _ _ => ⟨⟨trivial, trivial⟩, fun _ _ => trivial⟩⟩⟩
    exact .inr (.inl (Option.some_ne_none _))

/-- 4001 characters go from 4001 on, and the block has 8001. -/
theorem long_string_is_outside :
    ∃ out, snd_output_buffer_open true (fun _ => some fun _ => NUL) = some (0, some out) ∧
      ¬ AllStates attempt (Sound text) ⟨out, none⟩
        [⟨.puts (List.replicate 4001 'a'), fun _ => some fun _ => NUL⟩] := by
  obtain ⟨out, hopen, -, hsize⟩ := snd_output_buffer_open_spec fun _ _ => NUL
  obtain ⟨hheld, hlen⟩ := opened _ _ _ hopen
  refine ⟨out, hopen, ?_⟩
  rintro ⟨-, s', hs', -⟩
  have hlength : (Op.puts (List.replicate 4001 'a')).length = 4001 := List.length_replicate
  rw [attempt_outside _ _ hheld (by dsimp only; rw [hlen, hlength]; decide)] at hs'
  · cases hs'
  · unfold Fits
    dsimp only
    rw [hlen, hsize, List.length_replicate, if_neg (by decide)]
    rintro (hnone | hle)
    · exact Option.some_ne_none _ hnone
    · exact absurd hle (by decide)

end Salsa.Output
