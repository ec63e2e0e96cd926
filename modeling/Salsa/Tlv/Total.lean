import Salsa.Tlv.Walk

/-!
# The parser on arbitrary words

The parser takes the two words of a header before it knows that they are there: a container whose
TLVs leave a single word over makes the size left wrap around.
-/

namespace Salsa.Tlv

open CInt

/-! ## The calls of a run -/

inductive Call where
  | info (pos : Nat) (tlv_size : BitVec 32)
  /-- The head of the loop, where `size` bytes are left. -/
  | container (pos : Nat) (size : BitVec 32)

/-- What the parser comes to, with the counters that it holds there. -/
inductive Reaches (buf : Words) (tlv_size : BitVec 32) : Call → Prop
  | start : Reaches buf tlv_size (.info 0 tlv_size)
  | enter (pos : Nat) (size : BitVec 32) (h : Reaches buf tlv_size (.info pos size))
      (hfits : ¬ buf.word (pos + 1) > size - 8#32) (htype : buf.word pos = SND_CTL_TLVT_CONTAINER) :
      Reaches buf tlv_size (.container (pos + 2) (BitVec.ofNat 32 (int_index (buf.word (pos + 1)) * 4)))
  | round (pos : Nat) (size : BitVec 32) (h : Reaches buf tlv_size (.container pos size)) (hsize : size > 0#32) :
      Reaches buf tlv_size (.info pos size)
  | next (pos : Nat) (size : BitVec 32) (h : Reaches buf tlv_size (.container pos size)) (hsize : size > 0#32)
      (fuel : Nat) (block : Option Nat) (hcall : parse_dB_info buf fuel pos size = .ok (0, block)) :
      Reaches buf tlv_size (.container (pos + 2 + int_index (buf.word (pos + 1)))
        (size - BitVec.ofNat 32 ((2 + int_index (buf.word (pos + 1))) * 4)))

/-- The parser ends, reads words of the array only, keeps its counters from wrapping around, and
finds a block inside of the array. -/
structure ParsesSafely (buf : Words) (tlv_size : BitVec 32) : Prop where
  ends : ∃ ret block, snd_tlv_parse_dB_info buf tlv_size = .ok (ret, block) ∧
    (0 < ret → ∃ pos, block = some pos ∧ 4 * (pos : Int) + ret ≤ 4 * buf.size)
  header : ∀ pos size, Reaches buf tlv_size (.info pos size) → 8 ≤ size.toNat
  rest : ∀ pos size fuel block, Reaches buf tlv_size (.container pos size) → size > 0#32 →
    parse_dB_info buf fuel pos size = .ok (0, block) → 4 * (2 + int_index (buf.word (pos + 1))) ≤ size.toNat

/-- The walk over `n` words from `pos` on comes to a single word. -/
inductive Lone (buf : Words) : Nat → Nat → Prop
  | here (pos : Nat) : Lone buf pos 1
  | enter (pos n : Nat) (hfits : Fits buf pos n) (htype : buf.word pos = SND_CTL_TLVT_CONTAINER)
      (hrest : Lone buf (pos + 2) (int_index (buf.word (pos + 1)))) : Lone buf pos n
  | next (pos n : Nat) (hfits : Fits buf pos n) (hcontainer : buf.word pos ≠ SND_CTL_TLVT_CONTAINER)
      (hdB : is_dB_type (buf.word pos) = false)
      (hrest : Lone buf (pos + 2 + int_index (buf.word (pos + 1))) (n - (2 + int_index (buf.word (pos + 1))))) :
      Lone buf pos n

theorem lone_cases (buf : Words) (pos n : Nat) (h : Lone buf pos n) :
    n = 1 ∨
      buf.word pos = SND_CTL_TLVT_CONTAINER ∧ Lone buf (pos + 2) (int_index (buf.word (pos + 1))) ∨
      buf.word pos ≠ SND_CTL_TLVT_CONTAINER ∧ is_dB_type (buf.word pos) = false ∧
        Lone buf (pos + 2 + int_index (buf.word (pos + 1))) (n - (2 + int_index (buf.word (pos + 1)))) := by
  cases h with
  | here => exact .inl rfl
  | enter _ _ _ htype hrest => exact .inr (.inl ⟨htype, hrest⟩)
  | next _ _ _ hcontainer hdB hrest => exact .inr (.inr ⟨hcontainer, hdB, hrest⟩)

/-- The array is a container in whose walk a single word is left. -/
def LeavesLone (buf : Words) : Prop :=
  Fits buf 0 buf.size ∧ buf.word 0 = SND_CTL_TLVT_CONTAINER ∧ Lone buf 2 (int_index (buf.word 1))

/-- A walk that does not come to a single word comes to an end. -/
theorem exists_walk (buf : Words) (n pos : Nat) (h : ¬ Lone buf pos n) : ∃ r, Walk buf pos n r := by
  induction n using Nat.strong_induction_on generalizing pos with
  | _ n ih =>
    by_cases hn : 2 ≤ n
    · by_cases hfits : Fits buf pos n
      · have hwords := hfits.words
        by_cases htype : buf.word pos = SND_CTL_TLVT_CONTAINER
        · obtain ⟨r, hwalk⟩ := ih _ (by omega) (pos + 2) fun hlone => h (.enter pos n hfits htype hlone)
          exact ⟨r, .enter pos n r hfits htype hwalk⟩
        · cases hdB : is_dB_type (buf.word pos) with
          | true => exact ⟨_, .found pos n hfits hdB⟩
          | false =>
            obtain ⟨r, hwalk⟩ := ih _ (by omega) _ fun hlone => h (.next pos n hfits htype hdB hlone)
            exact ⟨r, .next pos n r hfits htype hdB hwalk⟩
      · exact ⟨none, .misfit pos n hn hfits⟩
    · rcases (by omega : n = 0 ∨ n = 1) with rfl | rfl
      · exact ⟨none, .done pos⟩
      · exact absurd (.here pos) h

/-! ## Calls that return 0 -/

theorem parse_container_ne_zero (buf : Words) (fuel pos : Nat) (size : BitVec 32) (ret : Int) (block : Option Nat)
    (h : parse_container buf fuel pos size = .ok (ret, block)) : ret ≠ 0 := by
  induction fuel generalizing pos size with
  | zero =>
    rw [parse_container] at h
    cases h
  | succ fuel ih =>
    rw [parse_container] at h
    split_ifs at h
    · obtain ⟨⟨err, found⟩, -, h⟩ := (bind_eq_ok _ _ _).mp h
      dsimp only at h
      split_ifs at h with herr
      · obtain ⟨rfl, rfl⟩ : err = ret ∧ found = block := by simpa [pure, Except.pure] using h
        exact herr
      · obtain ⟨word, -, h⟩ := (bind_eq_ok _ _ _).mp h
        exact ih _ _ h
    · obtain ⟨rfl, rfl⟩ : -EINVAL = ret ∧ none = block := by simpa [pure, Except.pure] using h
      decide

/-- A call that returns 0 has met a TLV that fits and is neither a container nor a dB block. -/
theorem fits_of_zero (buf : Words) (fuel pos n : Nat) (block : Option Nat) (hn : 2 ≤ n) (hsize : pos + n ≤ buf.size)
    (h32 : 4 * n < 4294967296) (h : parse_dB_info buf fuel pos (BitVec.ofNat 32 (n * 4)) = .ok (0, block)) :
    Fits buf pos n ∧ buf.word pos ≠ SND_CTL_TLVT_CONTAINER ∧ is_dB_type (buf.word pos) = false := by
  cases fuel with
  | zero =>
    rw [parse_dB_info] at h
    cases h
  | succ fuel =>
    rw [parse_dB_info_eq buf fuel pos n hn hsize h32] at h
    split_ifs at h with hmisfit htype hdB
    · simp [EINVAL] at h
    · exact absurd rfl (parse_container_ne_zero buf fuel _ _ _ _ h)
    · have hfits := (fits_iff buf pos n hn h32).mp hmisfit
      have hdata := hfits.data
      have hcut := cut_ne_zero ((buf.word (pos + 1)).toNat + 8) (by omega) (by omega)
      rw [Nat.cast_add] at hcut
      simp only [Except.ok.injEq, Prod.mk.injEq] at h
      exact absurd h.1 hcut
    · exact ⟨(fits_iff buf pos n hn h32).mp hmisfit, htype, by simpa using hdB⟩

/-! ## Where no single word is left -/

/-- The counters of a call are multiples of a word, and the words are there. -/
def Sized (buf : Words) : Call → Prop
  | .info pos size => ∃ n, size = BitVec.ofNat 32 (n * 4) ∧ 2 ≤ n ∧ pos + n ≤ buf.size ∧
      (Fits buf pos n → buf.word pos = SND_CTL_TLVT_CONTAINER →
        ¬ Lone buf (pos + 2) (int_index (buf.word (pos + 1))))
  | .container pos size => ∃ n, size = BitVec.ofNat 32 (n * 4) ∧ pos + n ≤ buf.size ∧ ¬ Lone buf pos n

theorem pos_of_size (n : Nat) (h : BitVec.ofNat 32 (n * 4) > 0#32) : n ≠ 0 := by
  rintro rfl
  exact absurd h (by decide)

theorem two_le_of_not_lone (buf : Words) (pos n : Nat) (h : ¬ Lone buf pos n) (hn : n ≠ 0) : 2 ≤ n := by
  by_contra hlt
  obtain rfl : n = 1 := by omega
  exact h (.here pos)

theorem sized_of_reaches (buf : Words) (hbuf : 2 ≤ buf.size) (h32 : 4 * buf.size < 4294967296)
    (hlone : ¬ LeavesLone buf) (c : Call) (h : Reaches buf (BitVec.ofNat 32 (buf.size * 4)) c) : Sized buf c := by
  induction h with
  | start => exact ⟨buf.size, rfl, hbuf, by omega, fun hfits htype hrest => hlone ⟨hfits, htype, hrest⟩⟩
  | enter pos size _ hfits htype ih =>
    obtain ⟨n, rfl, hn, hsize, hrest⟩ := ih
    have hfits' := (fits_iff buf pos n hn (by omega)).mp hfits
    have hwords := hfits'.words
    exact ⟨_, rfl, by omega, hrest hfits' htype⟩
  | round pos size _ hsize ih =>
    obtain ⟨n, rfl, hwords, hrest⟩ := ih
    exact ⟨n, rfl, two_le_of_not_lone buf pos n hrest (pos_of_size n hsize), hwords,
      fun hfits htype hinner => hrest (.enter pos n hfits htype hinner)⟩
  | next pos size _ hsize fuel block hcall ih =>
    obtain ⟨n, rfl, hwords, hrest⟩ := ih
    have hn := two_le_of_not_lone buf pos n hrest (pos_of_size n hsize)
    obtain ⟨hfits, hcontainer, hdB⟩ := fits_of_zero buf fuel pos n block hn hwords (by omega) hcall
    have hlen := hfits.words
    exact ⟨_, bytes_sub n _ (by omega) hlen, by omega, fun hinner => hrest (.next pos n hfits hcontainer hdB hinner)⟩

theorem parse_ends (buf : Words) (hbuf : 2 ≤ buf.size) (h32 : 4 * buf.size < 4294967296)
    (hlone : ¬ LeavesLone buf) :
    ∃ ret block, snd_tlv_parse_dB_info buf (BitVec.ofNat 32 (buf.size * 4)) = .ok (ret, block) ∧
      (0 < ret → ∃ pos, block = some pos ∧ 4 * (pos : Int) + ret ≤ 4 * buf.size) := by
  rw [snd_tlv_parse_dB_info, bytes_toNat _ h32, parse_dB_info_eq buf _ 0 buf.size hbuf (by omega) h32]
  split_ifs with hmisfit htype hdB
  · exact ⟨_, _, rfl, fun h => absurd h (by decide)⟩
  · have hfits := (fits_iff buf 0 buf.size hbuf h32).mp hmisfit
    have hwords : 2 + int_index (buf.word 1) ≤ buf.size := hfits.words
    obtain ⟨r, hwalk⟩ := exists_walk buf _ 2 fun hrest => hlone ⟨hfits, htype, hrest⟩
    rw [parse_container_of_walk buf _ _ r hwalk (by omega) (by omega) _ (by omega)]
    refine ⟨_, _, rfl, fun hret => ?_⟩
    cases r with
    | none => exact absurd hret (by decide)
    | some block =>
      obtain ⟨start, bytes⟩ := block
      have hinside := hwalk.inside
      have hcut : cut bytes = bytes := positive_cut bytes (by omega) hret
      refine ⟨start, rfl, ?_⟩
      show 4 * (start : Int) + cut bytes ≤ 4 * buf.size
      omega
  · have hfits := (fits_iff buf 0 buf.size hbuf h32).mp hmisfit
    have hdata : (buf.word 1).toNat ≤ 4 * (buf.size - 2) := hfits.data
    refine ⟨cut ((buf.word 1).toNat + 8), _, rfl, fun hret => ⟨0, rfl, ?_⟩⟩
    have hcut := positive_cut ((buf.word 1).toNat + 8) (by omega) hret
    rw [Nat.cast_add] at hcut
    rw [show cut ((buf.word 1).toNat + 8) = (buf.word 1).toNat + 8 from hcut]
    omega
  · exact ⟨_, _, rfl, fun h => absurd h (by decide)⟩

/-! ## Where one is -/

/-- The walk to a single word is a run to a header of which only one word is left. -/
theorem reaches_lone (buf : Words) (tlv_size : BitVec 32) (h32 : 4 * buf.size < 4294967296) (pos n : Nat)
    (h : Lone buf pos n) (hsize : pos + n ≤ buf.size)
    (hreach : Reaches buf tlv_size (.container pos (BitVec.ofNat 32 (n * 4)))) :
    ∃ pos', Reaches buf tlv_size (.info pos' 4#32) := by
  induction h with
  | here pos => exact ⟨pos, .round pos _ hreach (by decide)⟩
  | enter pos n hfits htype hrest ih =>
    have hn := hfits.header
    have hwords := hfits.words
    have hpos := bytes_pos n (by omega) (by omega)
    exact ih (by omega) (.enter pos _ (.round pos _ hreach hpos) ((fits_iff buf pos n hn (by omega)).mpr hfits) htype)
  | next pos n hfits hcontainer hdB hrest ih =>
    have hn := hfits.header
    have hwords := hfits.words
    have hpos := bytes_pos n (by omega) (by omega)
    have hcall := parse_dB_info_eq buf 0 pos n hn hsize (by omega)
    rw [if_neg ((fits_iff buf pos n hn (by omega)).mpr hfits), if_neg hcontainer, if_neg (by simp [hdB])] at hcall
    have hnext := Reaches.next pos _ hreach hpos _ _ hcall
    rw [bytes_sub n _ (by omega) hwords] at hnext
    exact ih (by omega) hnext

/-- The parser is safe on all arrays but those in which it comes to a single word. -/
theorem parses_safely_iff (buf : Words) (hbuf : 2 ≤ buf.size) (h32 : 4 * buf.size < 4294967296) :
    ParsesSafely buf (BitVec.ofNat 32 (buf.size * 4)) ↔ ¬ LeavesLone buf := by
  constructor
  · rintro ⟨-, hheader, -⟩ ⟨hfits, htype, hlone⟩
    have hwords := hfits.words
    have henter := Reaches.enter 0 _ .start ((fits_iff buf 0 buf.size hbuf h32).mpr hfits) htype
    obtain ⟨pos, hreach⟩ := reaches_lone buf _ h32 _ _ hlone (by omega) henter
    exact absurd (hheader pos _ hreach) (by decide)
  · intro hlone
    refine ⟨parse_ends buf hbuf h32 hlone, fun pos size hreach => ?_, fun pos size fuel block hreach hsize hcall => ?_⟩
    · obtain ⟨n, rfl, hn, hwords, -⟩ := sized_of_reaches buf hbuf h32 hlone _ hreach
      rw [bytes_toNat n (by omega)]
      omega
    · obtain ⟨n, rfl, hwords, hrest⟩ := sized_of_reaches buf hbuf h32 hlone _ hreach
      have hn := two_le_of_not_lone buf pos n hrest (pos_of_size n hsize)
      have hlen := (fits_of_zero buf fuel pos n block hn hwords (by omega) hcall).1.words
      rw [bytes_toNat n (by omega)]
      omega

/-- A TLV without dB data, and behind it one with the range from -10 dB on in steps of 1 dB. -/
def scale_behind : Words :=
  Words.ofList
    [SND_CTL_TLVT_CONTAINER, 28#32, 0x101#32, 4#32, 5#32, SND_CTL_TLVT_DB_SCALE, 8#32, 0xfffffc18#32, 100#32]

theorem scale_behind_safe : ParsesSafely scale_behind (BitVec.ofNat 32 (9 * 4)) := by
  refine (parses_safely_iff scale_behind (by decide) (by decide)).mpr ?_
  rintro ⟨-, -, hlone⟩
  have hsize : int_index (scale_behind.word 1) = 7 := by decide
  rw [hsize] at hlone
  rcases lone_cases scale_behind 2 7 hlone with h | ⟨h, -⟩ | ⟨-, -, hrest⟩
  · exact absurd h (by decide)
  · exact absurd h (by decide)
  · have hleaf : int_index (scale_behind.word 3) = 1 := by decide
    rw [hleaf] at hrest
    rcases lone_cases scale_behind 5 4 hrest with h | ⟨h, -⟩ | ⟨-, h, -⟩
    · exact absurd h (by decide)
    · exact absurd h (by decide)
    · exact absurd h (by decide)

/-- A container with one word in it. -/
def one_word : Words := Words.ofList [SND_CTL_TLVT_CONTAINER, 4#32, 1#32]

/-- The header of the TLV in the container is read past the end of the array. -/
theorem one_word_not_safe : ¬ ∀ buf : Words, 2 ≤ buf.size → 4 * buf.size < 4294967296 →
    ParsesSafely buf (BitVec.ofNat 32 (buf.size * 4)) := by
  intro hall
  obtain ⟨⟨ret, block, hok, -⟩, -, -⟩ := hall one_word (by decide) (by decide)
  have hread : snd_tlv_parse_dB_info one_word (BitVec.ofNat 32 (one_word.size * 4)) = .error .read := by rfl
  rw [hread] at hok
  cases hok

end Salsa.Tlv
