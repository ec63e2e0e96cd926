import Salsa.Tlv.Walk

/-!
# Trees of TLVs

A container without dB data ends the search, whatever comes behind it.
-/

namespace Salsa.Tlv

open CInt

/-- The TLVs in a container, one behind the other. -/
inductive Forest where
  | nil
  | leaf (type : BitVec 32) (data : List (BitVec 32)) (rest : Forest)
  | container (inner rest : Forest)

def Forest.words : Forest → List (BitVec 32)
  | .nil => []
  | .leaf type data rest => type :: BitVec.ofNat 32 (4 * data.length) :: (data ++ rest.words)
  | .container inner rest =>
    SND_CTL_TLVT_CONTAINER :: BitVec.ofNat 32 (4 * inner.words.length) :: (inner.words ++ rest.words)

/-- Only containers have the type of a container. -/
def Forest.WellFormed : Forest → Prop
  | .nil => True
  | .leaf type _ rest => type ≠ SND_CTL_TLVT_CONTAINER ∧ rest.WellFormed
  | .container inner rest => inner.WellFormed ∧ rest.WellFormed

/-- The first dB leaf in depth-first order, and its bytes with the header, of a forest at `pos`. -/
def Forest.first : Forest → Nat → Option (Nat × Nat)
  | .nil, _ => none
  | .leaf type data rest, pos =>
    if is_dB_type type then some (pos, 4 * data.length + 8) else rest.first (pos + 2 + data.length)
  | .container inner rest, pos =>
    (inner.first (pos + 2)).orElse fun _ => rest.first (pos + 2 + inner.words.length)

def Forest.hasDB : Forest → Bool
  | .nil => false
  | .leaf type _ rest => is_dB_type type || rest.hasDB
  | .container inner rest => inner.hasDB || rest.hasDB

/-- Every container up to the first dB leaf has a dB leaf itself. -/
def Forest.Clear : Forest → Prop
  | .nil => True
  | .leaf type _ rest => is_dB_type type = true ∨ rest.Clear
  | .container inner _ => inner.hasDB = true ∧ inner.Clear

/-- Where the walk ends: it does not come back from a container. -/
def Forest.reached : Forest → Nat → Option (Nat × Nat)
  | .nil, _ => none
  | .leaf type data rest, pos =>
    if is_dB_type type then some (pos, 4 * data.length + 8) else rest.reached (pos + 2 + data.length)
  | .container inner _, pos => inner.reached (pos + 2)

theorem first_eq_none (f : Forest) (pos : Nat) : f.first pos = none ↔ f.hasDB = false := by
  induction f generalizing pos with
  | nil => simp [Forest.first, Forest.hasDB]
  | leaf type data rest ih =>
    rw [Forest.first, Forest.hasDB]
    cases is_dB_type type with
    | true => simp
    | false => simp [ih]
  | container inner rest ih ih' =>
    rw [Forest.first, Forest.hasDB, Bool.or_eq_false_iff, ← ih (pos + 2), ← ih' (pos + 2 + inner.words.length)]
    cases inner.first (pos + 2) <;> simp

theorem reached_of_hasDB (f : Forest) (pos : Nat) (h : f.hasDB = false) : f.reached pos = none := by
  induction f generalizing pos with
  | nil => rfl
  | leaf type data rest ih =>
    rw [Forest.hasDB, Bool.or_eq_false_iff] at h
    rw [Forest.reached, if_neg (by simp [h.1])]
    exact ih _ h.2
  | container inner rest ih _ =>
    rw [Forest.hasDB, Bool.or_eq_false_iff] at h
    exact ih _ h.1

theorem reached_of_clear (f : Forest) (pos : Nat) (h : f.Clear) : f.reached pos = f.first pos := by
  induction f generalizing pos with
  | nil => rfl
  | leaf type data rest ih =>
    rw [Forest.reached, Forest.first]
    split_ifs with hdB
    · rfl
    · exact ih _ (h.resolve_left hdB)
  | container inner rest ih _ =>
    obtain ⟨hhas, hclear⟩ := h
    have hsome : inner.first (pos + 2) ≠ none := by
      rw [Ne, first_eq_none, hhas]
      decide
    rw [Forest.reached, Forest.first, ih _ hclear]
    cases hfirst : inner.first (pos + 2) with
    | none => exact absurd hfirst hsome
    | some block => rfl

theorem reached_of_not_clear (f : Forest) (pos : Nat) (h : ¬ f.Clear) : f.reached pos = none := by
  induction f generalizing pos with
  | nil => rfl
  | leaf type data rest ih =>
    rw [Forest.Clear, not_or] at h
    rw [Forest.reached, if_neg h.1]
    exact ih _ h.2
  | container inner rest ih _ =>
    rw [Forest.Clear, not_and_or] at h
    rw [Forest.reached]
    rcases h with hnone | hclear
    · exact reached_of_hasDB inner _ (by simpa using hnone)
    · exact ih _ hclear

/-! ## Trees in memory -/

/-- The words `l` are in memory from word `pos` on. -/
structure Holds (buf : Words) (pos : Nat) (l : List (BitVec 32)) : Prop where
  size : pos + l.length ≤ buf.size
  word : ∀ i, i < l.length → some (buf.word (pos + i)) = l[i]?

theorem Holds.head {buf : Words} {pos : Nat} {x : BitVec 32} {l : List (BitVec 32)} (h : Holds buf pos (x :: l)) :
    buf.word pos = x ∧ Holds buf (pos + 1) l := by
  have hsize := h.size
  rw [List.length_cons] at hsize
  refine ⟨by simpa using h.word 0 (by simp), by omega, fun i hi => ?_⟩
  have hword := h.word (i + 1) (by simpa using hi)
  rw [List.getElem?_cons_succ, Nat.add_comm i, ← Nat.add_assoc] at hword
  exact hword

theorem Holds.append {buf : Words} {pos : Nat} {l m : List (BitVec 32)} (h : Holds buf pos (l ++ m)) :
    Holds buf pos l ∧ Holds buf (pos + l.length) m := by
  have hsize := h.size
  rw [List.length_append] at hsize
  refine ⟨⟨by omega, fun i hi => ?_⟩, ⟨by omega, fun i hi => ?_⟩⟩
  · rw [h.word i (by rw [List.length_append]; omega), List.getElem?_append_left hi]
  · rw [Nat.add_assoc, h.word _ (by rw [List.length_append]; omega), List.getElem?_append_right (by omega),
      Nat.add_sub_cancel_left]

theorem index_of_length (n : Nat) (h : 4 * n < 4294967296) :
    (BitVec.ofNat 32 (4 * n)).toNat = 4 * n ∧ int_index (BitVec.ofNat 32 (4 * n)) = n := by
  have hnat : (BitVec.ofNat 32 (4 * n)).toNat = 4 * n := by
    rw [BitVec.toNat_ofNat]
    omega
  rw [int_index, hnat]
  exact ⟨rfl, by omega⟩

/-- A header in memory, with the data behind it. -/
theorem holds_header {buf : Words} {pos n : Nat} {type : BitVec 32} {l : List (BitVec 32)}
    (h : Holds buf pos (type :: BitVec.ofNat 32 (4 * n) :: l)) (hn : n ≤ l.length) (h32 : 4 * n < 4294967296) :
    buf.word pos = type ∧ int_index (buf.word (pos + 1)) = n ∧ (buf.word (pos + 1)).toNat = 4 * n ∧
      Fits buf pos (l.length + 1 + 1) ∧ Holds buf (pos + 2) l := by
  obtain ⟨htype, h⟩ := h.head
  obtain ⟨hlen, h⟩ := h.head
  obtain ⟨hnat, hindex⟩ := index_of_length n h32
  rw [hlen]
  exact ⟨htype, hindex, hnat, ⟨by omega, by rw [hlen, hnat]; omega⟩, h⟩

/-- The walk over a forest in memory. -/
theorem walk_of_forest (buf : Words) (f : Forest) (pos : Nat) (hf : f.WellFormed) (h : Holds buf pos f.words)
    (h32 : 4 * f.words.length < 4294967296) : Walk buf pos f.words.length (f.reached pos) := by
  induction f generalizing pos with
  | nil => exact .done pos
  | leaf type data rest ih =>
    rw [Forest.words] at h h32 ⊢
    rw [Forest.reached]
    simp only [List.length_cons] at h32 ⊢
    obtain ⟨htype, hindex, hnat, hfits, hdata⟩ := holds_header h (by simp) (by simp at h32; omega)
    split_ifs with hdB
    · have hfound := Walk.found pos _ hfits (by rw [htype]; exact hdB)
      rwa [hnat] at hfound
    · refine .next pos _ _ hfits (by rw [htype]; exact hf.1) (by rw [htype]; simpa using hdB) ?_
      have hrest := ih (pos + 2 + data.length) hf.2 hdata.append.2 (by simp at h32; omega)
      rw [hindex, List.length_append]
      convert hrest using 1
      omega
  | container inner rest ih _ =>
    rw [Forest.words] at h h32 ⊢
    rw [Forest.reached]
    simp only [List.length_cons] at h32 ⊢
    obtain ⟨htype, hindex, hnat, hfits, hdata⟩ := holds_header h (by simp) (by simp at h32; omega)
    refine .enter pos _ _ hfits htype ?_
    rw [hindex]
    exact ih (pos + 2) hf.1 hdata.append.1 (by simp at h32; omega)

/-- A TLV by itself. -/
inductive Tree where
  | leaf (type : BitVec 32) (data : List (BitVec 32))
  | container (inner : Forest)

def Tree.forest : Tree → Forest
  | .leaf type data => .leaf type data .nil
  | .container inner => .container inner .nil

/-- The parser finds the first dB leaf with its size, or nothing. -/
def FindsFirst (t : Tree) (r : C (Int × Option Nat)) : Prop :=
  match t.forest.first 0 with
  | some (pos, bytes) => r = .ok ((bytes : Int), some pos)
  | none => ∃ err, r = .ok (err, none) ∧ err ≤ 0

/-- What the parser returns for a tree. -/
theorem parse_tree (t : Tree) (ht : t.forest.WellFormed) (buf : Words) (tlv_size : BitVec 32)
    (h : Holds buf 0 t.forest.words) (hsize : 4 * t.forest.words.length ≤ tlv_size.toNat) :
    ∃ err, err ≤ 0 ∧ snd_tlv_parse_dB_info buf tlv_size =
      .ok (match t.forest.reached 0 with
        | some (pos, bytes) => (cut bytes, some pos)
        | none => (err, none)) := by
  have h32 := tlv_size.isLt
  have hread0 : 2 ≤ t.forest.words.length := by cases t <;> simp [Tree.forest, Forest.words]
  have hroom := h.size
  rw [snd_tlv_parse_dB_info, parse_dB_info, buf.read_ok 0 (by omega), buf.read_ok 1 (by omega)]
  simp only [ok_bind]
  have hsub : (tlv_size - 8#32).toNat = tlv_size.toNat - 8 := by
    rw [BitVec.toNat_sub_of_le (by rw [BitVec.le_def]; simp; omega)]
    rfl
  cases t with
  | leaf type data =>
    simp only [Tree.forest, Forest.words, List.append_nil, List.length_cons, Forest.reached] at h hsize ht ⊢
    obtain ⟨htype, -, hnat, -, -⟩ := holds_header h le_rfl (by omega)
    rw [if_neg (by rw [gt_iff_lt, BitVec.lt_def, hsub, hnat]; omega), htype, if_neg ht.1, hnat]
    refine ⟨0, le_rfl, ?_⟩
    split_ifs
    · push_cast
      rfl
    · rfl
  | container inner =>
    simp only [Tree.forest, Forest.words, List.append_nil, List.length_cons, Forest.reached] at h hsize ht ⊢
    obtain ⟨htype, hindex, hnat, -, hdata⟩ := holds_header h le_rfl (by omega)
    have hwalk := walk_of_forest buf inner 2 ht.1 hdata (by omega)
    rw [if_neg (by rw [gt_iff_lt, BitVec.lt_def, hsub, hnat]; omega), if_pos htype, hindex,
      parse_container_of_walk buf _ _ _ hwalk hdata.size (by omega) _ (by omega)]
    refine ⟨-EINVAL, by decide, ?_⟩
    cases inner.reached (0 + 2) <;> rfl

/-- The parser finds the first dB leaf of a tree if no container without one comes before it, and
if its size is an int. -/
theorem finds_first_iff (t : Tree) (ht : t.forest.WellFormed) (buf : Words) (tlv_size : BitVec 32)
    (h : Holds buf 0 t.forest.words) (hsize : 4 * t.forest.words.length ≤ tlv_size.toNat) :
    FindsFirst t (snd_tlv_parse_dB_info buf tlv_size) ↔
      ∀ pos bytes, t.forest.first 0 = some (pos, bytes) → t.forest.Clear ∧ bytes ≤ 2147483647 := by
  obtain ⟨err, herr, hparse⟩ := parse_tree t ht buf tlv_size h hsize
  rw [hparse, FindsFirst]
  by_cases hclear : t.forest.Clear
  · rw [reached_of_clear _ _ hclear]
    cases hfirst : t.forest.first 0 with
    | none => exact iff_of_true ⟨err, rfl, herr⟩ (by simp)
    | some block =>
      obtain ⟨pos, bytes⟩ := block
      constructor
      · intro hfound pos' bytes' heq
        obtain ⟨rfl, rfl⟩ : pos = pos' ∧ bytes = bytes' := by simpa using heq
        have hcut : cut bytes = bytes := by simpa using hfound
        have := (cut_isInt bytes).2
        exact ⟨hclear, by omega⟩
      · intro hsmall
        have hint : IsInt bytes := ⟨by omega, by have := (hsmall pos bytes rfl).2; omega⟩
        dsimp only
        rw [hint.cut]
  · rw [reached_of_not_clear _ _ hclear]
    cases hfirst : t.forest.first 0 with
    | none => exact iff_of_true ⟨err, rfl, herr⟩ (by simp)
    | some block =>
      refine iff_of_false (fun hfound => ?_) fun hall => hclear (hall block.1 block.2 rfl).1
      simp at hfound

/-- A tree of its own array. -/
theorem holds_ofList (l : List (BitVec 32)) : Holds (Words.ofList l) 0 l := by
  refine ⟨by simp [Words.ofList], fun i hi => ?_⟩
  rw [Nat.zero_add, List.getElem?_eq_getElem hi]
  simp [Words.ofList, hi]

def chmap_leaf (rest : Forest) : Forest := .leaf 0x101#32 [3#32, 4#32] rest

def scale_leaf (rest : Forest) : Forest := .leaf SND_CTL_TLVT_DB_SCALE [0#32, 100#32] rest

theorem finds_behind_chmap :
    FindsFirst (.container (chmap_leaf (scale_leaf .nil)))
      (snd_tlv_parse_dB_info (Words.ofList (Tree.container (chmap_leaf (scale_leaf .nil))).forest.words) 40#32) :=
  (finds_first_iff (.container (chmap_leaf (scale_leaf .nil))) ⟨⟨by decide, by decide, trivial⟩, trivial⟩
    (Words.ofList (Tree.container (chmap_leaf (scale_leaf .nil))).forest.words) 40#32 (holds_ofList _)
    (by decide)).mpr fun pos bytes hfirst => by
      obtain ⟨rfl, rfl⟩ : 6 = pos ∧ 16 = bytes := by
        have heq : (Tree.container (chmap_leaf (scale_leaf .nil))).forest.first 0 = some (6, 16) := by rfl
        rw [heq] at hfirst
        simpa using hfirst
      exact ⟨⟨by decide, Or.inr (Or.inl (by decide))⟩, by decide⟩

/-- A channel map in a container of its own hides the scale behind it. -/
def hidden_scale : Tree := .container (.container (chmap_leaf .nil) (scale_leaf .nil))

theorem hidden_scale_not_found : ¬ ∀ (t : Tree) (buf : Words) (tlv_size : BitVec 32), t.forest.WellFormed →
    Holds buf 0 t.forest.words → 4 * t.forest.words.length ≤ tlv_size.toNat →
      FindsFirst t (snd_tlv_parse_dB_info buf tlv_size) := by
  intro hall
  have hfound := hall hidden_scale (Words.ofList hidden_scale.forest.words) 48#32
    ⟨⟨⟨by decide, trivial⟩, ⟨by decide, trivial⟩⟩, trivial⟩ (holds_ofList _) (by decide)
  have hfirst : hidden_scale.forest.first 0 = some (8, 16) := by rfl
  have hparse : snd_tlv_parse_dB_info (Words.ofList hidden_scale.forest.words) 48#32 = .ok (-EINVAL, none) := by rfl
  rw [hparse, FindsFirst, hfirst] at hfound
  simp at hfound

end Salsa.Tlv
