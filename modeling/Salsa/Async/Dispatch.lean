import Salsa.Async.Registry

/-!
# The dispatch of a signal

`snd_async_handler` calls the handlers of a descriptor one after the other. A callback may itself add,
delete and close, so that the list changes under the loop.
-/

namespace Salsa.Async

open Run Keyed

/-! ## Lists that change under a cursor -/

section Edit

variable {κ α : Type*} (key : α → κ)

/-- Entries were put in or taken out, but `x` stayed, and behind it nothing was put in. -/
def Edited (x : α) (l l' : List α) : Prop :=
  ∀ front rest, l = front ++ x :: rest → ∃ front' rest', l' = front' ++ x :: rest' ∧ rest'.Sublist rest ∧
    ∀ y ∈ rest, y ∈ l' → y ∈ rest'

theorem Edited.refl (x : α) (l : List α) : Edited x l l :=
  fun front rest h => ⟨front, rest, h, List.Sublist.refl rest, fun _ hy _ => hy⟩

theorem edited_cons (x y : α) (l : List α) : Edited x l (y :: l) :=
  fun front rest h => ⟨y :: front, rest, by rw [h]; rfl, List.Sublist.refl rest, fun _ hz _ => hz⟩

variable {key} [DecidableEq κ]

theorem edited_unlink {l : List α} {x e : α} (h : Distinct key l) (he : e ∈ l) (hx : x ≠ e) :
    Edited x l (unlink key (key e) l).2 := by
  intro front rest hl
  obtain ⟨-, -, hiff⟩ := unlink_of_mem h he
  suffices hsplit : ∃ front' rest', (unlink key (key e) l).2 = front' ++ x :: rest' ∧ rest'.Sublist rest ∧
      ∀ y ∈ rest, y ≠ e → y ∈ rest' by
    obtain ⟨front', rest', heq, hsub, hmem⟩ := hsplit
    exact ⟨front', rest', heq, hsub, fun y hy hleft => hmem y hy ((hiff y).mp hleft).2⟩
  clear hiff
  induction front generalizing l with
  | nil =>
    subst hl
    have hkey : key x ≠ key e := fun hkey => hx (h.eq_of_key List.mem_cons_self he hkey)
    have hmem : e ∈ rest := (List.mem_cons.mp he).resolve_left fun heq => hx heq.symm
    obtain ⟨-, hsub, hiff⟩ := unlink_of_mem (distinct_sublist h (List.sublist_cons_self x rest)) hmem
    refine ⟨[], (unlink key (key e) rest).2, ?_, hsub, fun y hy hne => (hiff y).mpr ⟨hy, hne⟩⟩
    simp [unlink, hkey]
  | cons a front ih =>
    subst hl
    by_cases hkey : key a = key e
    · exact ⟨front, rest, by simp [unlink, hkey], List.Sublist.refl rest, fun y hy _ => hy⟩
    · have hmem : e ∈ front ++ x :: rest := (List.mem_cons.mp he).resolve_left fun heq => hkey (heq ▸ rfl)
      obtain ⟨front', rest', heq, hsub, hleft⟩ :=
        ih (distinct_sublist h (List.sublist_cons_self a _)) hmem rfl
      refine ⟨a :: front', rest', ?_, hsub, hleft⟩
      rw [List.cons_append, unlink, if_neg hkey]
      exact congrArg (a :: ·) heq

end Edit

/-! ## The source -/

/-- The calls to the library that a callback makes, from the state that it finds. -/
abbrev Callbacks := Nat → SndAsyncHandler → State → List Act

/-- A call of the callback of `h`. `h->next` is read after it, so `h` must not be freed on the way. -/
def call_back (prog : Callbacks) (callback : Nat) (h : SndAsyncHandler) (s : State) : Option State :=
  run (fun s a => (step s a).filter fun s' => s'.async_list.any fun x => x.addr == h.addr) s (prog callback h s)

/-- The handler behind the one at `addr`. -/
def next (addr : Nat) : List SndAsyncHandler → Option Nat
  | [] => none
  | h :: rest => if h.addr = addr then rest.head?.map SndAsyncHandler.addr else next addr rest

/-- A callback that was called, with the state it found. -/
structure Called where
  handler : SndAsyncHandler
  callback : Nat
  found : State

/-- The loop, from the handler at the cursor on. A handler that is not in the list is not allocated any
more. -/
def handler_loop (prog : Callbacks) (fd : Int) : Nat → Option Nat → State → Option (State × List Called)
  | _, none, s => some (s, [])
  | 0, some _, _ => none
  | n + 1, some addr, s => do
    let h ← s.async_list.find? fun x => x.addr == addr
    match h.callback with
    | some callback =>
      if h.fd = fd then
        let s' ← call_back prog callback h s
        let (t, calls) ← handler_loop prog fd n (next addr s'.async_list) s'
        return (t, ⟨h, callback, s⟩ :: calls)
      else handler_loop prog fd n (next addr s.async_list) s
    | none => handler_loop prog fd n (next addr s.async_list) s

def snd_async_handler (prog : Callbacks) (fd : Int) (s : State) : Option (State × List Called) :=
  handler_loop prog fd s.async_list.length (s.async_list.head?.map SndAsyncHandler.addr) s

/-! ## What a callback may do -/

/-- The call takes the handler out of the list. -/
def Removes (a : Act) (h : SndAsyncHandler) : Prop :=
  a = .del h.addr ∨ ∃ o, a.closed = some o ∧ h.pointer = some (.async o)

/-- Callbacks use the library as the program does, and spare the handler they are called for. -/
def Behaves (prog : Callbacks) : Prop :=
  ∀ callback h s, Registered s → h ∈ s.async_list → h.callback = some callback →
    AllSteps step (fun s a => Allowed s a ∧ ¬ Removes a h) s (prog callback h s)

/-- Along the calls of the callback, the list does not have the handler all the time. -/
def Called.Lost (prog : Callbacks) (c : Called) (h : SndAsyncHandler) : Prop :=
  ¬ AllReached step (fun s => h ∈ s.async_list) c.found (prog c.callback c.handler c.found)

/-- A handler of the descriptor, with a callback. -/
def Wanted (fd : Int) (h : SndAsyncHandler) : Bool := h.callback.isSome && h.fd == fd

/-! ## One call -/

/-- What a call to the library makes of the list: a new handler in front, or one handler less. -/
theorem step_list (s s' : State) (hreg : Registered s) (a : Act) (hallowed : Allowed s a) (hstep : step s a = some s') :
    s'.async_list = s.async_list ∨ (∃ h, s'.async_list = h :: s.async_list) ∨
      ∃ h ∈ s.async_list, s'.async_list = (unlink SndAsyncHandler.addr h.addr s.async_list).2 ∧ Removes a h := by
  unfold step at hstep
  cases ha : a.addition with
  | some add =>
    obtain ⟨fields, hobject⟩ := Option.isSome_iff_exists.mp (hallowed.open_add add ha)
    rw [exec_addition s a add ha] at hstep
    by_cases hsucceeds : Succeeds s add
    · obtain ⟨addr, haddr⟩ := Option.isSome_iff_exists.mp hsucceeds.2.1
      rw [add_succeeds s add fields hobject hreg addr haddr (hallowed.fresh add addr ha haddr) hsucceeds] at hstep
      cases hstep
      exact Or.inr (Or.inl ⟨_, rfl⟩)
    · obtain ⟨ret, -, hcall⟩ := add_fails s add fields hobject hreg hsucceeds
      rw [hcall] at hstep
      cases hstep
      exact Or.inl rfl
  | none =>
    have hclose (o : Object) (hclosed : a.closed = some o) (hexec : exec s a = (close_object o s).map fun s => (0, s)) :
        s'.async_list = s.async_list ∨ ∃ h ∈ s.async_list,
          s'.async_list = (unlink SndAsyncHandler.addr h.addr s.async_list).2 ∧ Removes a h := by
      obtain ⟨fields, hobject⟩ := Option.isSome_iff_exists.mp (hallowed.open_close o hclosed)
      obtain ⟨t, hcall, -, -, hcases⟩ := close_spec s o fields hreg hobject
      rw [hexec, hcall] at hstep
      cases hstep
      rcases hcases with ⟨-, rfl⟩ | ⟨h, hmem, hpointer, rfl⟩
      · exact Or.inl rfl
      · exact Or.inr ⟨h, hmem, rfl, Or.inr ⟨o, hclosed, hpointer⟩⟩
    cases a with
    | add_pcm => cases ha
    | add_ctl => cases ha
    | pcm_close pcm => exact (hclose _ rfl rfl).imp id Or.inr
    | ctl_close ctl => exact (hclose _ rfl rfl).imp id Or.inr
    | del handler =>
      unfold exec at hstep
      by_cases hmem : ∃ h ∈ s.async_list, h.addr = handler
      · obtain ⟨h, hmem, rfl⟩ := hmem
        obtain ⟨o, fields, -, -, -, hdel⟩ := del_present s hreg h hmem
        dsimp only at hstep
        rw [hdel] at hstep
        cases hstep
        exact Or.inr (Or.inr ⟨h, hmem, rfl, Or.inl rfl⟩)
      · dsimp only at hstep
        rw [del_absent s hreg handler fun x hx haddr => hmem ⟨x, hx, haddr⟩] at hstep
        cases hstep
        exact Or.inl rfl

theorem step_edited (s s' : State) (hreg : Registered s) (a : Act) (h : SndAsyncHandler) (hallowed : Allowed s a)
    (hspared : ¬ Removes a h) (hstep : step s a = some s') : Edited h s.async_list s'.async_list := by
  rcases step_list s s' hreg a hallowed hstep with heq | ⟨new, heq⟩ | ⟨e, he, heq, hremoves⟩
  · rw [heq]
    exact Edited.refl h _
  · rw [heq]
    exact edited_cons h new _
  · rw [heq]
    refine edited_unlink hreg.distinct he ?_
    rintro rfl
    exact hspared hremoves

/-- The calls of one callback: they are defined, the list is edited around the handler, and what is still in it
behind the handler was never out of it. -/
theorem calls_edited (h : SndAsyncHandler) (as : List Act) (s : State) (hreg : Registered s)
    (front rest : List SndAsyncHandler) (hlist : s.async_list = front ++ h :: rest)
    (hbehaves : AllSteps step (fun s a => Allowed s a ∧ ¬ Removes a h) s as) :
    ∃ s' front' rest',
      run (fun s a => (step s a).filter fun s' => s'.async_list.any fun x => x.addr == h.addr) s as = some s' ∧
      Registered s' ∧ s'.async_list = front' ++ h :: rest' ∧ rest'.Sublist rest ∧
      ∀ y ∈ rest, AllReached step (fun s => y ∈ s.async_list) s as → y ∈ rest' := by
  induction as generalizing s front rest with
  | nil => exact ⟨s, front, rest, rfl, hreg, hlist, List.Sublist.refl rest, fun y hy _ => hy⟩
  | cons a as ih =>
    obtain ⟨⟨hallowed, hspared⟩, hnext⟩ := hbehaves
    obtain ⟨ret, s₁, hexec, hreg₁, -⟩ := step_spec s hreg a hallowed
    have hstep : step s a = some s₁ := by rw [step, hexec]; rfl
    obtain ⟨front₁, rest₁, hlist₁, hsub₁, hmem₁⟩ := step_edited s s₁ hreg a h hallowed hspared hstep front rest hlist
    have hthere : (s₁.async_list.any fun x => x.addr == h.addr) = true := by simp [hlist₁]
    obtain ⟨s', front', rest', hrun, hreg', hlist', hsub', hmem'⟩ := ih s₁ hreg₁ front₁ rest₁ hlist₁ (hnext s₁ hstep)
    refine ⟨s', front', rest', ?_, hreg', hlist', hsub'.trans hsub₁, ?_⟩
    · rw [run_cons, hstep, Option.filter_some, if_pos hthere]
      exact hrun
    · rintro y hy ⟨-, hrest⟩
      have hreached := hrest s₁ hstep
      exact hmem' y (hmem₁ y hy (allReached_head _ s₁ as hreached)) hreached

/-! ## The loop -/

theorem next_eq (front rest : List SndAsyncHandler) (h : SndAsyncHandler)
    (hdistinct : Distinct SndAsyncHandler.addr (front ++ h :: rest)) :
    next h.addr (front ++ h :: rest) = rest.head?.map SndAsyncHandler.addr := by
  induction front with
  | nil => simp [next]
  | cons a front ih =>
    have hne : a.addr ≠ h.addr := by
      intro heq
      have hsame := hdistinct.eq_of_key (List.mem_cons_self) (List.mem_cons_of_mem _ (by simp)) heq
      unfold Distinct at hdistinct
      simp [hsame] at hdistinct
    rw [List.cons_append, next, if_neg hne]
    exact ih (distinct_sublist hdistinct (List.sublist_cons_self a _))

theorem find_eq (front rest : List SndAsyncHandler) (h : SndAsyncHandler)
    (hdistinct : Distinct SndAsyncHandler.addr (front ++ h :: rest)) :
    ((front ++ h :: rest).find? fun x => x.addr == h.addr) = some h := by
  obtain ⟨x, hx⟩ := Option.isSome_iff_exists.mp (show ((front ++ h :: rest).find? fun x => x.addr == h.addr).isSome by
    simp)
  have haddr : x.addr = h.addr := by simpa using List.find?_some hx
  rw [hx, hdistinct.eq_of_key (List.mem_of_find?_eq_some hx) (by simp) haddr]

/-- The loop from a handler on: it ends, reads nothing that was freed, and calls the wanted handlers in their
order, each but those that a callback removes. -/
structure Dispatched (prog : Callbacks) (fd : Int) (rest : List SndAsyncHandler) (s' : State)
    (calls : List Called) : Prop where
  registered : Registered s'
  order : (calls.map Called.handler).Sublist (rest.filter (Wanted fd))
  all : ∀ h ∈ rest, Wanted fd h = true → h ∈ calls.map Called.handler ∨ ∃ c ∈ calls, c.Lost prog h

theorem loop_dispatched (prog : Callbacks) (hprog : Behaves prog) (fd : Int) (n : Nat) (s : State) (hreg : Registered s)
    (front rest : List SndAsyncHandler) (hlist : s.async_list = front ++ rest) (hn : rest.length ≤ n) :
    ∃ s' calls, handler_loop prog fd n (rest.head?.map SndAsyncHandler.addr) s = some (s', calls) ∧
      Dispatched prog fd rest s' calls := by
  induction n generalizing s front rest with
  | zero =>
    obtain rfl := List.length_eq_zero_iff.mp (Nat.le_zero.mp hn)
    exact ⟨s, [], rfl, hreg, List.Sublist.refl [], by simp⟩
  | succ n ih =>
    cases rest with
    | nil => exact ⟨s, [], rfl, hreg, List.Sublist.refl [], by simp⟩
    | cons h rest =>
      have hdistinct := hreg.distinct
      rw [hlist] at hdistinct
      have hshort : rest.length ≤ n := by simpa using hn
      have hpassed : s.async_list = (front ++ [h]) ++ rest := by simp [hlist]
      have hfind := find_eq front rest h hdistinct
      rw [← hlist] at hfind
      have hnext := next_eq front rest h hdistinct
      rw [← hlist] at hnext
      -- A handler of another descriptor, or without a callback, is passed over.
      have hskip (hunwanted : Wanted fd h = false) : ∃ s' calls,
          handler_loop prog fd n (next h.addr s.async_list) s = some (s', calls) ∧
            Dispatched prog fd (h :: rest) s' calls := by
        obtain ⟨s', calls, hloop, hdone⟩ := ih s hreg (front ++ [h]) rest hpassed hshort
        refine ⟨s', calls, hnext ▸ hloop, hdone.registered, ?_, ?_⟩
        · rw [List.filter_cons_of_neg (by simp [hunwanted])]
          exact hdone.order
        · intro x hx hwanted
          rcases List.mem_cons.mp hx with rfl | hx
          · exact absurd hwanted (by simp [hunwanted])
          · exact hdone.all x hx hwanted
      unfold handler_loop
      simp only [List.head?_cons, Option.map_some, hfind, Option.bind_eq_bind, Option.bind_some]
      cases hcallback : h.callback with
      | none => exact hskip (by simp [Wanted, hcallback])
      | some callback =>
        by_cases hfd : h.fd = fd
        · dsimp only
          rw [if_pos hfd]
          have hmem : h ∈ s.async_list := by simp [hlist]
          obtain ⟨s₁, front₁, rest₁, hrun, hreg₁, hlist₁, hsub, hkept⟩ := calls_edited h _ s hreg front rest hlist
            (hprog callback h s hreg hmem hcallback)
          have hnext₁ := next_eq front₁ rest₁ h (hlist₁ ▸ hreg₁.distinct)
          rw [← hlist₁] at hnext₁
          obtain ⟨s', calls, hloop, hdone⟩ := ih s₁ hreg₁ (front₁ ++ [h]) rest₁ (by simp [hlist₁])
            (Nat.le_trans hsub.length_le hshort)
          refine ⟨s', ⟨h, callback, s⟩ :: calls, ?_, hdone.registered, ?_, ?_⟩
          · unfold call_back
            simp only [hrun, Option.bind_some, hnext₁, hloop]
            rfl
          · rw [List.filter_cons_of_pos (by simp [Wanted, hcallback, hfd]), List.map_cons]
            exact (hdone.order.trans (hsub.filter _)).cons_cons h
          · intro x hx hwanted
            rcases List.mem_cons.mp hx with rfl | hx
            · exact Or.inl List.mem_cons_self
            by_cases hlost : AllReached step (fun s => x ∈ s.async_list) s (prog callback h s)
            · rcases hdone.all x (hkept x hx hlost) hwanted with hcalled | ⟨c, hc, hclost⟩
              · exact Or.inl (List.mem_cons_of_mem _ hcalled)
              · exact Or.inr ⟨c, List.mem_cons_of_mem _ hc, hclost⟩
            · exact Or.inr ⟨⟨h, callback, s⟩, List.mem_cons_self, hlost⟩
        · dsimp only
          rw [if_neg hfd]
          exact hskip (by simp [Wanted, hcallback, hfd])

/-- A signal calls each handler of its descriptor that is in the list and has a callback exactly once, in the
order of the list, unless a callback before takes it out; what a callback adds is not called. -/
theorem signal_dispatched (prog : Callbacks) (hprog : Behaves prog) (fd : Int) (s : State) (hreg : Registered s) :
    ∃ s' calls, snd_async_handler prog fd s = some (s', calls) ∧ Registered s' ∧ OneEach s' ∧
      (calls.map Called.handler).Sublist (s.async_list.filter (Wanted fd)) ∧
      ∀ h ∈ s.async_list, Wanted fd h = true → h ∈ calls.map Called.handler ∨ ∃ c ∈ calls, c.Lost prog h := by
  obtain ⟨s', calls, hloop, hdone⟩ := loop_dispatched prog hprog fd _ s hreg [] s.async_list rfl (Nat.le_refl _)
  exact ⟨s', calls, hloop, hdone.registered, hdone.registered.oneEach, hdone.order, hdone.all⟩

def handler_of (pcm addr : Nat) : SndAsyncHandler :=
  ⟨addr, 3, some 0, 0, some (.pcm pcm), some (.async (.pcm pcm))⟩

def two_handlers : State :=
  { objects := fun o =>
      if o = .pcm 0 then some ⟨3, some 100⟩ else if o = .pcm 1 then some ⟨3, some 200⟩ else none
    async_list := [handler_of 1 200, handler_of 0 100]
    action := true
    vars := fun _ => none }

theorem two_handlers_registered : Registered two_handlers where
  distinct := by
    unfold Distinct
    decide
  field o fields addr hobject hasync := by
    unfold two_handlers at hobject ⊢
    dsimp only at hobject ⊢
    split_ifs at hobject with h0 h1
    · cases hobject
      cases hasync
      exact ⟨handler_of 0 100, by simp, rfl, h0 ▸ rfl⟩
    · cases hobject
      cases hasync
      exact ⟨handler_of 1 200, by simp, rfl, h1 ▸ rfl⟩
  owned h hmem := by
    simp only [two_handlers, List.mem_cons, List.not_mem_nil, or_false] at hmem
    rcases hmem with rfl | rfl
    · exact ⟨.pcm 1, _, rfl, rfl, rfl, rfl, rfl⟩
    · exact ⟨.pcm 0, _, rfl, rfl, rfl, rfl, rfl⟩
  action := iff_of_true rfl (List.cons_ne_nil _ _)

/-- The callback of the handler at 200 deletes the one at 100. -/
def deletes : Callbacks := fun _ h _ => if h.addr = 200 then [.del 100] else []

theorem deletes_behaves : Behaves deletes := by
  intro callback h s _ _ _
  unfold deletes
  split_ifs with haddr
  · refine ⟨⟨⟨fun _ h => (nomatch h), fun _ _ h => (nomatch h), fun _ h => (nomatch h)⟩, ?_⟩, fun _ _ => trivial⟩
    rintro (hdel | ⟨o, hclosed, -⟩)
    · rw [haddr] at hdel
      cases hdel
    · cases hclosed
  · trivial

theorem two_handlers_dispatched : ∃ s' calls, snd_async_handler deletes 3 two_handlers = some (s', calls) ∧
    Registered s' ∧ calls.map Called.handler = [handler_of 1 200] := by
  obtain ⟨s', calls, hcall, hreg, -⟩ := signal_dispatched deletes deletes_behaves 3 two_handlers two_handlers_registered
  refine ⟨s', calls, hcall, hreg, ?_⟩
  have hrun : (snd_async_handler deletes 3 two_handlers).map (fun r => r.2.map Called.handler) =
      some [handler_of 1 200] := by
    decide
  rw [hcall] at hrun
  exact Option.some.inj hrun

end Salsa.Async
