import Salsa.Ctl.Value

/-!
# Names of enumerated values

`get_enum_index` takes the first item whose name the text begins with, and the text goes on behind its token.
-/

namespace Salsa.Ctl

open CInt CText

/-- The kernel reports these names for the element. -/
structure Reports (handle : ElemInfo) (info : SndCtlElemInfo) (names : List (List Char)) : Prop where
  type : info.type = .enumerated
  items : info.items.toNat = names.length
  answers : ∀ (i : Nat) (h : i < names.length) (name : List Char),
    handle { info with item := BitVec.ofNat 32 i, name := name } =
      some { info with item := BitVec.ofNat 32 i, name := names[i] }

/-- Names without commas. -/
structure Valid (names : List (List Char)) : Prop where
  distinct : names.Nodup
  nonempty : ∀ name ∈ names, name ≠ []
  comma : ∀ name ∈ names, ',' ∉ name

/-- Tokens that are names set the values to them, and others are refused. -/
structure Resolved (handle : ElemInfo) (dst : SndCtlElemValue) (info : SndCtlElemInfo)
    (names tokens : List (List Char)) :
    Prop where
  found : (∀ token ∈ tokens, token ∈ names) → ∃ dst' info',
    snd_ctl_ascii_value_parse handle dst info (joined_texts tokens) = .ok (0, dst', info') ∧
      ∀ i < tokens.length, names[(dst'.item i).toNat]? = tokens[i]?
  refused : (∃ token ∈ tokens, token ∉ names) → ∃ dst' info',
    snd_ctl_ascii_value_parse handle dst info (joined_texts tokens) = .ok (-EINVAL, dst', info')

/-- The first name that the text begins with, or the number of names. -/
def first_match (names : List (List Char)) (ptr : List Char) : Nat := names.findIdx fun name => name.isPrefixOf ptr

/-! ## One lookup -/

theorem strncmpEq_name (ptr name : List Char) : strncmpEq ptr name name.length = name.isPrefixOf ptr := by
  unfold strncmpEq
  rw [List.take_length, Bool.eq_iff_iff, beq_iff_eq, List.isPrefixOf_iff_prefix, List.prefix_iff_eq_take, eq_comm]

/-- It is reached at the first match. -/
theorem first_match_reached (names : List (List Char)) (ptr : List Char) (i : Nat) (hlt : i < names.length)
    (hi : i ≤ first_match names ptr) : names[i].isPrefixOf ptr = true ↔ first_match names ptr = i := by
  unfold first_match at hi ⊢
  rw [List.findIdx_eq hlt]
  exact ⟨fun h => ⟨h, fun j hj => List.not_of_lt_findIdx (Nat.lt_of_lt_of_le hj hi)⟩, fun h => h.1⟩

/-- It ends where the number of an item does not fit in an int any more. -/
theorem enum_loop_eq (handle : ElemInfo) (info : SndCtlElemInfo) (names : List (List Char))
    (h : Reports handle info names)
    (ptr : List Char) (item : BitVec 32) (name : List Char) (i : Nat) (hi : i ≤ first_match names ptr)
    (hint : i ≤ 2147483648) :
    ∃ item' name', enum_loop handle ptr { info with item := item, name := name } i =
      if first_match names ptr < 2147483648 then
        .ok (if first_match names ptr < names.length then (first_match names ptr : Int) else -1,
          { info with item := item', name := name' })
      else .error .overflow := by
  have hle : first_match names ptr ≤ names.length := List.findIdx_le_length
  induction hn : 2147483648 - i generalizing i item name with
  | zero =>
    refine ⟨item, name, ?_⟩
    rw [enum_loop, if_pos (by omega), if_neg (by omega)]
  | succ n ih =>
    rw [enum_loop, if_neg (by omega)]
    dsimp only
    rw [h.items]
    by_cases hlt : i < names.length
    · rw [if_pos hlt, h.answers i hlt name]
      dsimp only
      rw [strncmpEq_name]
      have hreached := first_match_reached names ptr i hlt hi
      by_cases hprefix : names[i].isPrefixOf ptr = true
      · refine ⟨BitVec.ofNat 32 i, names[i], ?_⟩
        rw [if_pos hprefix, hreached.mp hprefix, if_pos (by omega), if_pos hlt]
        rfl
      · have hne := mt hreached.mpr hprefix
        rw [if_neg hprefix]
        exact ih (BitVec.ofNat 32 i) names[i] (i + 1) (by omega) (by omega) (by omega)
    · refine ⟨item, name, ?_⟩
      rw [if_neg hlt, if_pos (by omega), if_neg (by omega)]
      rfl

section Lookup

variable {handle : ElemInfo} {info : SndCtlElemInfo} {names : List (List Char)} (h : Reports handle info names)

include h

theorem get_enum_index_eq (ptr : List Char) (item : BitVec 32) (name : List Char) :
    ∃ item' name', get_enum_index handle { info with item := item, name := name } ptr =
      if first_match names ptr < 2147483648 then
        .ok (if first_match names ptr < names.length then (first_match names ptr : Int) else -1,
          { info with item := item', name := name' })
      else .error .overflow :=
  enum_loop_eq handle info names h ptr item name 0 (Nat.zero_le _) (Nat.zero_le _)

/-- One step of the loop over the values. -/
theorem enumerated_step (n idx : Nat) (dst : SndCtlElemValue) (item : BitVec 32) (name ptr : List Char)
    (hidx : idx < info.count.toNat) (hptr : ptr ≠ []) :
    ∃ item' name', value_loop handle (n + 1) idx dst { info with item := item, name := name } ptr =
      if first_match names ptr < 2147483648 then
        if first_match names ptr < names.length then
          value_loop handle n (idx + 1) (dst.set_item idx (BitVec.ofNat 32 (first_match names ptr)))
            { info with item := item', name := name' } (ptr.dropWhile (· ≠ ','))
        else .ok (-EINVAL, dst, { info with item := item', name := name' })
      else .error .overflow := by
  obtain ⟨item', name', hindex⟩ := get_enum_index_eq h ptr item name
  refine ⟨item', name', ?_⟩
  rw [value_loop, if_pos ⟨hidx, hptr⟩]
  unfold parse_one
  dsimp only
  rw [h.type]
  dsimp only
  rw [← h.type, hindex]
  split
  · rw [ok_bind]
    dsimp only
    split
    · rw [if_neg (by omega), BitVec.ofInt_natCast]
      rfl
    · rfl
  · rfl

/-- No name begins with a comma. -/
theorem comma_step (hnames : Valid names) (n idx : Nat) (dst : SndCtlElemValue) (item : BitVec 32) (name s : List Char)
    (hidx : idx < info.count.toNat) :
    ∃ item' name', value_loop handle (n + 1) idx dst { info with item := item, name := name } (',' :: s) =
      if names.length < 2147483648 then .ok (-EINVAL, dst, { info with item := item', name := name' })
      else .error .overflow := by
  have hnone : first_match names (',' :: s) = names.length := by
    apply List.findIdx_eq_length_of_false
    intro name hname
    obtain ⟨c, cs, rfl⟩ := List.exists_cons_of_ne_nil (hnames.nonempty name hname)
    have hc : c ≠ ',' := fun hc => hnames.comma _ hname (hc ▸ List.mem_cons_self)
    rw [List.isPrefixOf_cons_cons, beq_eq_false_iff_ne.mpr hc, Bool.false_and]
  obtain ⟨item', name', hstep⟩ := enumerated_step h n idx dst item name (',' :: s) hidx (List.cons_ne_nil _ _)
  refine ⟨item', name', ?_⟩
  rw [hstep, hnone, if_neg (Nat.lt_irrefl _)]

end Lookup

/-! ## A list of tokens -/

theorem prefix_of_commas (name token : List Char) (rest : List (List Char)) (hname : ',' ∉ name)
    (h : name <+: token ++ rest.flatMap (',' :: ·)) : name <+: token := by
  induction name generalizing token with
  | nil => exact List.nil_prefix
  | cons c cs ih =>
    cases token with
    | nil =>
      cases rest with
      | nil => exact h
      | cons next rest =>
        obtain ⟨rfl, -⟩ := List.cons_prefix_cons.mp h
        exact absurd List.mem_cons_self hname
    | cons d ds =>
      obtain ⟨rfl, hcs⟩ := List.cons_prefix_cons.mp h
      exact List.cons_prefix_cons.mpr ⟨rfl, ih ds (fun hmem => hname (List.mem_cons_of_mem _ hmem)) hcs⟩

theorem value_loop_end (handle : ElemInfo) (n idx : Nat) (dst : SndCtlElemValue) (info : SndCtlElemInfo) :
    value_loop handle n idx dst info [] = .ok (0, dst, info) := by
  cases n with
  | zero => rfl
  | succ n =>
    rw [value_loop, if_neg fun hptr => hptr.2 rfl]
    rfl

/-- What is behind the token does not change what it begins with. -/
theorem first_match_token (names : List (List Char)) (hnames : Valid names) (token : List Char)
    (rest : List (List Char)) :
    first_match names (token ++ rest.flatMap (',' :: ·)) = first_match names token := by
  apply Nat.le_antisymm
  · apply List.findIdx_le_findIdx
    intro name _ hprefix
    rw [List.isPrefixOf_iff_prefix] at hprefix ⊢
    exact List.prefix_append_of_prefix hprefix
  · apply List.findIdx_le_findIdx
    intro name hname hprefix
    rw [List.isPrefixOf_iff_prefix] at hprefix ⊢
    exact prefix_of_commas name token rest (hnames.comma name hname) hprefix

/-- Of one token the text begins with a name, which is the value. -/
theorem parse_single {handle : ElemInfo} {info : SndCtlElemInfo} {names : List (List Char)}
    (h : Reports handle info names) (dst : SndCtlElemValue) (token : List Char) (hcount : 0 < info.count.toNat)
    (hcomma : ',' ∉ token) (hne : token ≠ []) :
    ∃ info', snd_ctl_ascii_value_parse handle dst info (joined_texts [token]) =
      if first_match names token < 2147483648 then
        if first_match names token < names.length then
          .ok (0, dst.set_item 0 (BitVec.ofNat 32 (first_match names token)), info')
        else .ok (-EINVAL, dst, info')
      else .error .overflow := by
  obtain ⟨item', name', hstep⟩ := enumerated_step h 127 0 dst info.item info.name token hcount hne
  refine ⟨{ info with item := item', name := name' }, ?_⟩
  have hdrop := dropWhile_token token [] hcomma
  rw [List.flatMap_nil, List.append_nil] at hdrop
  unfold snd_ctl_ascii_value_parse
  rw [joined_texts_cons, List.flatMap_nil, List.append_nil]
  refine hstep.trans ?_
  rw [hdrop, value_loop_end]

/-- Of more than one, the second does not begin with any. -/
theorem parse_more {handle : ElemInfo} {info : SndCtlElemInfo} {names : List (List Char)}
    (h : Reports handle info names) (hnames : Valid names) (dst : SndCtlElemValue) (token next : List Char)
    (rest : List (List Char)) (hcount : 1 < info.count.toNat)
    (hcomma : ',' ∉ token) :
    ∃ dst' info', snd_ctl_ascii_value_parse handle dst info (joined_texts (token :: next :: rest)) =
      if names.length < 2147483648 then .ok (-EINVAL, dst', info') else .error .overflow := by
  obtain ⟨item, name, hfirst⟩ := enumerated_step h 127 0 dst info.item info.name
    (token ++ (next :: rest).flatMap (',' :: ·)) (by omega)
    (List.append_ne_nil_of_right_ne_nil _ (List.cons_ne_nil _ _))
  rw [first_match_token names hnames, dropWhile_token token _ hcomma] at hfirst
  obtain ⟨item', name', hsecond⟩ := comma_step h hnames 126 1
    (dst.set_item 0 (BitVec.ofNat 32 (first_match names token))) item name (next ++ rest.flatMap (',' :: ·)) hcount
  have hle : first_match names token ≤ names.length := List.findIdx_le_length
  unfold snd_ctl_ascii_value_parse
  rw [joined_texts_cons]
  by_cases hint : names.length < 2147483648
  · rw [if_pos hint] at hsecond
    rw [if_pos (by omega)] at hfirst
    simp only [if_pos hint]
    by_cases hmatch : first_match names token < names.length
    · rw [if_pos hmatch] at hfirst
      exact ⟨_, _, hfirst.trans hsecond⟩
    · rw [if_neg hmatch] at hfirst
      exact ⟨_, _, hfirst⟩
  · rw [if_neg hint] at hsecond
    refine ⟨dst, info, hfirst.trans ?_⟩
    rw [if_neg hint]
    split
    · split
      · exact hsecond
      · omega
    · rfl

/-- A token that names an item is found just when no earlier name begins it. -/
theorem single_found (handle : ElemInfo) (dst : SndCtlElemValue) (info : SndCtlElemInfo) (names : List (List Char))
    (token : List Char) (h : Reports handle info names) (hnames : Valid names) (hone : 1 ≤ info.count.toNat)
    (hcomma : ',' ∉ token) (hne : token ≠ []) (hmem : token ∈ names) :
    Resolved handle dst info names [token] ↔
      first_match names token = names.idxOf token ∧ names.idxOf token < 2147483648 := by
  have hidx := List.idxOf_lt_length_iff.mpr hmem
  obtain ⟨info', heq⟩ := parse_single h dst token hone hcomma hne
  constructor
  · intro hres
    obtain ⟨dst', info'', heq', hitem⟩ := hres.found fun t ht => List.mem_singleton.mp ht ▸ hmem
    rw [heq] at heq'
    split at heq'
    · rename_i hint
      split at heq'
      · rename_i hlt
        cases heq'
        have hget := hitem 0 Nat.zero_lt_one
        unfold SndCtlElemValue.set_item at hget
        dsimp only at hget
        rw [Function.update_self, BitVec.toNat_ofNat, Nat.mod_eq_of_lt (by omega),
          List.getElem?_eq_getElem hlt] at hget
        have hself := hnames.distinct.idxOf_getElem _ hlt
        rw [Option.some.inj hget] at hself
        exact ⟨hself.symm, by omega⟩
      · cases heq'
    · cases heq'
  · rintro ⟨hfirst, hint⟩
    refine ⟨fun _ => ⟨dst.set_item 0 (BitVec.ofNat 32 (first_match names token)), info', ?_, fun i hi => ?_⟩, ?_⟩
    · rw [heq, if_pos (by omega), if_pos (by omega)]
    · obtain rfl : i = 0 := Nat.lt_one_iff.mp hi
      unfold SndCtlElemValue.set_item
      dsimp only
      rw [Function.update_self, BitVec.toNat_ofNat, Nat.mod_eq_of_lt (by omega), hfirst,
        List.getElem?_eq_getElem hidx, List.getElem_idxOf hidx]
      rfl
    · rintro ⟨t, ht, hnot⟩
      exact absurd (List.mem_singleton.mp ht ▸ hmem) hnot

/-- A token that names none is refused just when no name begins it and the count fits an `int`. -/
theorem single_refused (handle : ElemInfo) (dst : SndCtlElemValue) (info : SndCtlElemInfo) (names : List (List Char))
    (token : List Char) (h : Reports handle info names) (hone : 1 ≤ info.count.toNat) (hcomma : ',' ∉ token)
    (hne : token ≠ []) (hmem : token ∉ names) :
    Resolved handle dst info names [token] ↔ first_match names token = names.length ∧ names.length < 2147483648 := by
  have hle : first_match names token ≤ names.length := List.findIdx_le_length
  obtain ⟨info', heq⟩ := parse_single h dst token hone hcomma hne
  constructor
  · intro hres
    obtain ⟨dst', info'', heq'⟩ := hres.refused ⟨token, List.mem_singleton_self token, hmem⟩
    rw [heq] at heq'
    split at heq'
    · split at heq'
      · cases heq'
      · exact ⟨by omega, by omega⟩
    · cases heq'
  · rintro ⟨hfirst, hint⟩
    refine ⟨fun hall => absurd (hall token (List.mem_singleton_self token)) hmem, fun _ => ⟨dst, info', ?_⟩⟩
    rw [heq, if_pos (by omega), if_neg (by omega)]

/-- After the first of several tokens the item is looked up again, and what is left begins with no name. -/
theorem several_refused (handle : ElemInfo) (dst : SndCtlElemValue) (info : SndCtlElemInfo)
    (names : List (List Char)) (token next : List Char) (rest : List (List Char)) (h : Reports handle info names)
    (hnames : Valid names) (htwo : 1 < info.count.toNat) (hcomma : ',' ∉ token) :
    Resolved handle dst info names (token :: next :: rest) ↔
      (∃ t ∈ token :: next :: rest, t ∉ names) ∧ names.length < 2147483648 := by
  obtain ⟨dst₁, info₁, heq⟩ := parse_more h hnames dst token next rest htwo hcomma
  constructor
  · intro hres
    by_cases hnot : ∃ t ∈ token :: next :: rest, t ∉ names
    · obtain ⟨dst', info', heq'⟩ := hres.refused hnot
      rw [heq] at heq'
      split at heq'
      · rename_i hint
        exact ⟨hnot, hint⟩
      · cases heq'
    · obtain ⟨dst', info', heq', -⟩ := hres.found fun t ht => by_contra fun hmem => hnot ⟨t, ht, hmem⟩
      rw [heq] at heq'
      split at heq' <;> cases heq'
  · rintro ⟨hnot, hint⟩
    refine ⟨fun hall => ?_, fun _ => ⟨dst₁, info₁, ?_⟩⟩
    · obtain ⟨t, ht, hmem⟩ := hnot
      exact absurd (hall t ht) hmem
    · rw [heq, if_pos hint]

/-- One token at most is read, and right if the first name that it begins with is itself. -/
theorem names_resolved_iff (handle : ElemInfo) (dst : SndCtlElemValue) (info : SndCtlElemInfo)
    (names tokens : List (List Char)) (h : Reports handle info names) (hnames : Valid names)
    (hcount : info.count.toNat ≤ 128) (hlen : tokens.length ≤ info.count.toNat) (hcomma : ∀ token ∈ tokens, ',' ∉ token)
    (hempty : tokens ≠ [[]]) :
    Resolved handle dst info names tokens ↔
      match tokens with
      | [] => True
      | [token] => first_match names token = names.idxOf token ∧ names.idxOf token < 2147483648
      | _ => (∃ token ∈ tokens, token ∉ names) ∧ names.length < 2147483648 := by
  match tokens with
  | [] =>
    refine iff_of_true ⟨fun _ => ⟨dst, info, value_loop_end handle 128 0 dst info, fun i hi => ?_⟩, ?_⟩ trivial
    · exact absurd hi (Nat.not_lt_zero i)
    · rintro ⟨token, htoken, -⟩
      cases htoken
  | [token] =>
    have hne : token ≠ [] := fun hnil => hempty (hnil ▸ rfl)
    have hin := hcomma token List.mem_cons_self
    by_cases hmem : token ∈ names
    · exact single_found handle dst info names token h hnames hlen hin hne hmem
    · have hrefused := single_refused handle dst info names token h hlen hin hne hmem
      rw [← List.idxOf_eq_length hmem] at hrefused
      exact hrefused
  | token :: next :: rest =>
    have htwo : 1 < info.count.toNat := by
      rw [List.length_cons, List.length_cons] at hlen
      omega
    exact several_refused handle dst info names token next rest h hnames htwo (hcomma token List.mem_cons_self)

/-- The items "Mic" and "Mic Boost", as a kernel reports them. -/
def mic_names : List (List Char) := [['M', 'i', 'c'], ['M', 'i', 'c', ' ', 'B', 'o', 'o', 's', 't']]

def mic_handle (info : SndCtlElemInfo) : Option SndCtlElemInfo :=
  if info.item.toNat < 2 then some { info with name := mic_names.getD info.item.toNat [] } else none

def mic_info : SndCtlElemInfo := ⟨.enumerated, 2#32, 2#32, 0#32, []⟩

theorem mic_reports : Reports mic_handle mic_info mic_names := by
  refine ⟨rfl, rfl, fun i h name => ?_⟩
  have hi : i = 0 ∨ i = 1 := by
    have htwo : i < 2 := h
    omega
  rcases hi with rfl | rfl <;> rfl

theorem mic_valid : Valid mic_names := ⟨by decide, by decide, by decide⟩

theorem names_resolved_iff_mic :
    Resolved mic_handle ⟨fun _ => 0#64, fun _ => 0#32⟩ mic_info mic_names [['M', 'i', 'c']] :=
  (names_resolved_iff mic_handle ⟨fun _ => 0#64, fun _ => 0#32⟩ mic_info mic_names [['M', 'i', 'c']] mic_reports
    mic_valid (by decide) (by decide) (by decide) (by decide)).mpr ⟨by decide, by decide⟩

/-- "Mic Boost" begins with "Mic"; and a second name is not found. -/
theorem names_not_resolved :
    (¬ Resolved mic_handle ⟨fun _ => 0#64, fun _ => 0#32⟩ mic_info mic_names
        [['M', 'i', 'c', ' ', 'B', 'o', 'o', 's', 't']]) ∧
      ¬ Resolved mic_handle ⟨fun _ => 0#64, fun _ => 0#32⟩ mic_info mic_names [['M', 'i', 'c'], ['M', 'i', 'c']] := by
  constructor
  · intro hres
    obtain ⟨dst', info', hfound, hitem⟩ := hres.found (by decide)
    obtain ⟨info'', heq⟩ := parse_single mic_reports ⟨fun _ => 0#64, fun _ => 0#32⟩
      ['M', 'i', 'c', ' ', 'B', 'o', 'o', 's', 't'] (by decide) (by decide) (by decide)
    rw [if_pos (by decide), if_pos (by decide)] at heq
    cases hfound.symm.trans heq
    exact absurd (hitem 0 (by decide)) (by decide)
  · intro hres
    obtain ⟨dst', info', hfound, -⟩ := hres.found (by decide)
    obtain ⟨dst₁, info₁, heq⟩ := parse_more mic_reports mic_valid ⟨fun _ => 0#64, fun _ => 0#32⟩ ['M', 'i', 'c']
      ['M', 'i', 'c'] [] (by decide) (by decide)
    rw [if_pos (by decide)] at heq
    cases hfound.symm.trans heq

end Salsa.Ctl
