import Salsa.Errno
import Salsa.Lib.Cells
import Salsa.Lib.Keyed
import Salsa.Lib.Run

/-!
# Asynchronous handlers

The list of handlers of `async.c`, and the PCM and control objects that they belong to.
-/

namespace Salsa.Async

open Cells Run Keyed

inductive Object where
  | pcm (p : Nat)
  | ctl (c : Nat)
deriving DecidableEq

/-- Where a handler is stored: the `async` field of an object, or a variable of the program. -/
inductive Loc where
  | async (o : Object)
  | var (n : Nat)
deriving DecidableEq

/-- `snd_async_handler_t` at its address; `record` is the field `rec`. -/
structure SndAsyncHandler where
  addr : Nat
  fd : Int
  callback : Option Nat
  private_data : Nat
  record : Option Object
  pointer : Option Loc
deriving DecidableEq

/-- What `snd_pcm_t` and `snd_ctl_t` have in common here. -/
structure Fields where
  fd : Int
  async : Option Nat

/-- The objects that are open, the list, whether the action of `SIGIO` is the library's, and the
program's variables. -/
structure State where
  objects : Object → Option Fields
  async_list : List SndAsyncHandler
  action : Bool
  vars : Nat → Option Nat

/-- `*loc = handler`, undefined in an object that is not open. -/
def State.store (s : State) (handler : Option Nat) : Loc → Option State
  | .async o => (s.objects o).map fun fields =>
    { s with objects := Function.update s.objects o (some { fields with async := handler }) }
  | .var n => some { s with vars := Function.update s.vars n handler }

structure Fcntl where
  getfl : Option Errno
  setfl : Option Errno
  setsig : Option Errno
  setown : Option Errno

structure System where
  calloc : Option Nat
  fcntl : Fcntl
  sigaction : Option Errno

def SIGIO : Int := 29

def snd_set_async (fcntl : Fcntl) (sig : Int) : Int :=
  match fcntl.getfl with
  | some errno => errno.neg
  | none =>
    match fcntl.setfl with
    | some errno => errno.neg
    | none =>
      if sig ≥ 0 then
        match fcntl.setsig with
        | some errno => errno.neg
        | none =>
          match fcntl.setown with
          | some errno => errno.neg
          | none => 0
      else 0

def set_action (sigaction : Option Errno) (s : State) : Int × State :=
  match sigaction with
  | some errno => (errno.neg, s)
  | none => (0, { s with action := true })

def snd_async_add_handler (sys : System) (s : State) (handler : Loc) (fd : Int) (callback : Option Nat)
    (private_data : Nat) : Option (Int × State) :=
  match sys.calloc with
  | none => some (-ENOMEM, s)
  | some addr =>
    let err := snd_set_async sys.fcntl SIGIO
    if err < 0 then some (err, s)
    else
      let (err, s) := if s.async_list = [] then set_action sys.sigaction s else (0, s)
      if err < 0 then some (err, s)
      else do
        let s ← State.store { s with async_list := ⟨addr, fd, callback, private_data, none, none⟩ :: s.async_list }
          (some addr) handler
        return (0, s)

/-- A handler that is not in the list is not freed; with an empty list the action is the default one. -/
def snd_async_del_handler (s : State) (handler : Nat) : Option State := do
  let (found, rest) := unlink SndAsyncHandler.addr handler s.async_list
  let s := { s with async_list := rest }
  let s ← match found.bind SndAsyncHandler.pointer with
    | some pointer => s.store none pointer
    | none => some s
  return if s.async_list = [] then { s with action := false } else s

/-- `h->rec = o; h->pointer = &o->async` -/
def SndAsyncHandler.adopt (o : Object) (h : SndAsyncHandler) : SndAsyncHandler :=
  { h with record := some o, pointer := some (.async o) }

/-- The object adopts the handler in its `async` field, which has to be there. -/
def adopt (s : State) (o : Object) : Option State := do
  let addr ← (← s.objects o).async
  if ∃ h ∈ s.async_list, h.addr = addr then
    let async_list := modify SndAsyncHandler.addr addr (SndAsyncHandler.adopt o) s.async_list
    return { s with async_list := async_list }
  else none

/-- `handlerp` is not looked at. -/
def add_object_handler (o : Object) (sys : System) (s : State) (_handlerp : Nat) (callback : Option Nat)
    (private_data : Nat) : Option (Int × State) := do
  let fields ← s.objects o
  if fields.async.isSome then return (-EBUSY, s)
  let (err, s) ← snd_async_add_handler sys s (.async o) fields.fd callback private_data
  if err < 0 then return (err, s)
  let s ← adopt s o
  return (0, s)

def snd_async_add_pcm_handler (sys : System) (s : State) (handlerp pcm : Nat) (callback : Option Nat)
    (private_data : Nat) : Option (Int × State) :=
  add_object_handler (.pcm pcm) sys s handlerp callback private_data

def snd_async_add_ctl_handler (sys : System) (s : State) (handler ctl : Nat) (callback : Option Nat)
    (private_data : Nat) : Option (Int × State) :=
  add_object_handler (.ctl ctl) sys s handler callback private_data

/-- What the close functions do with the handler and the object. -/
def close_object (o : Object) (s : State) : Option State := do
  let fields ← s.objects o
  let s ← match fields.async with
    | some handler => snd_async_del_handler s handler
    | none => some s
  return { s with objects := Function.update s.objects o none }

def snd_pcm_close (s : State) (pcm : Nat) : Option State := close_object (.pcm pcm) s

def snd_ctl_close (s : State) (ctl : Nat) : Option State := close_object (.ctl ctl) s

/-! ## What holds of the list -/

/-- The list has each handler once. The fields of the objects and the handlers in the list point to each
other, and the action of `SIGIO` is the library's while there is a handler. -/
structure Registered (s : State) : Prop where
  distinct : Distinct SndAsyncHandler.addr s.async_list
  field : ∀ o fields addr, s.objects o = some fields → fields.async = some addr →
    ∃ h ∈ s.async_list, h.addr = addr ∧ h.pointer = some (.async o)
  owned : ∀ h ∈ s.async_list, ∃ o fields, s.objects o = some fields ∧ fields.async = some h.addr ∧
    fields.fd = h.fd ∧ h.pointer = some (.async o) ∧ h.record = some o
  action : s.action = true ↔ s.async_list ≠ []

/-- An object with a handler has exactly one in the list. -/
def OneEach (s : State) : Prop := ∀ o fields, s.objects o = some fields → fields.async.isSome →
  ∃! h, h ∈ s.async_list ∧ h.pointer = some (.async o)

section

variable {s : State} (hreg : Registered s) {o : Object} {x : SndAsyncHandler} (hx : x ∈ s.async_list)

include hreg hx

theorem Registered.of_pointer (hpointer : x.pointer = some (.async o)) :
    ∃ fields, s.objects o = some fields ∧ fields.async = some x.addr := by
  obtain ⟨o', fields, hobject, hasync, -, hpointer', -⟩ := hreg.owned x hx
  obtain rfl : o' = o := by
    rw [hpointer'] at hpointer
    exact Loc.async.inj (Option.some.inj hpointer)
  exact ⟨fields, hobject, hasync⟩

theorem Registered.pointer_of_field {fields : Fields} (hobject : s.objects o = some fields)
    (hasync : fields.async = some x.addr) : x.pointer = some (.async o) := by
  obtain ⟨y, hy, haddr, hpointer⟩ := hreg.field o fields x.addr hobject hasync
  obtain rfl := hreg.distinct.eq_of_key hy hx haddr
  exact hpointer

theorem Registered.pointer_inj {y : SndAsyncHandler} (hy : y ∈ s.async_list) (hpointer : x.pointer = some (.async o))
    (hpointer' : y.pointer = some (.async o)) : x = y := by
  obtain ⟨fields, hobject, hasync⟩ := hreg.of_pointer hx hpointer
  obtain ⟨fields', hobject', hasync'⟩ := hreg.of_pointer hy hpointer'
  rw [hobject] at hobject'
  obtain rfl := Option.some.inj hobject'
  rw [hasync] at hasync'
  exact hreg.distinct.eq_of_key hx hy (Option.some.inj hasync')

end

theorem Registered.oneEach (s : State) (h : Registered s) : OneEach s := by
  intro o fields hobject hasync
  obtain ⟨addr, haddr⟩ := Option.isSome_iff_exists.mp hasync
  obtain ⟨e, he, -, hpointer⟩ := h.field o fields addr hobject haddr
  exact ⟨e, ⟨he, hpointer⟩, fun x hx => h.pointer_inj hx.1 he hx.2 hpointer⟩

/-! ## Additions -/

/-- What an addition is about: the object, the program's variable, and what the system answers. -/
structure Addition where
  object : Object
  sys : System
  handlerp : Nat
  callback : Option Nat
  private_data : Nat

/-- The object has no handler, one can be allocated, and the system accepts it. -/
def Succeeds (s : State) (add : Addition) : Prop :=
  (∀ fields, s.objects add.object = some fields → fields.async = none) ∧ add.sys.calloc.isSome ∧
    0 ≤ snd_set_async add.sys.fcntl SIGIO ∧ (s.async_list = [] → add.sys.sigaction = none)

def State.added (s : State) (o : Object) (fields : Fields) (h : SndAsyncHandler) : State :=
  { s with
    objects := Function.update s.objects o (some { fields with async := some h.addr })
    async_list := h :: s.async_list
    action := true }

def Addition.handler (add : Addition) (fd : Int) (addr : Nat) : SndAsyncHandler :=
  ⟨addr, fd, add.callback, add.private_data, some add.object, some (.async add.object)⟩

def Addition.call (add : Addition) (s : State) : Option (Int × State) :=
  add_object_handler add.object add.sys s add.handlerp add.callback add.private_data

section Add

variable (s : State) (add : Addition) (fields : Fields) (hobject : s.objects add.object = some fields)
  (hreg : Registered s)

theorem set_action_spec (sigaction : Option Errno) :
    ((set_action sigaction s).1 < 0 ∧ sigaction ≠ none ∧ (set_action sigaction s).2 = s) ∨
      ((set_action sigaction s).1 = 0 ∧ sigaction = none ∧
        (set_action sigaction s).2 = { s with action := true }) := by
  unfold set_action
  cases sigaction with
  | some errno => exact Or.inl ⟨errno.neg_lt_zero, Option.some_ne_none errno, rfl⟩
  | none => exact Or.inr ⟨rfl, rfl, rfl⟩

include hreg in
theorem action_spec (sigaction : Option Errno) :
    ∃ err s', (if s.async_list = [] then set_action sigaction s else (0, s)) = (err, s') ∧
      ((err < 0 ∧ s' = s ∧ ¬ (s.async_list = [] → sigaction = none)) ∨
        (err = 0 ∧ s' = { s with action := true } ∧ (s.async_list = [] → sigaction = none))) := by
  by_cases hempty : s.async_list = []
  · rw [if_pos hempty]
    refine ⟨_, _, rfl, ?_⟩
    rcases set_action_spec s sigaction with ⟨herr, hfails, hsame⟩ | ⟨herr, hworks, hset⟩
    · exact Or.inl ⟨herr, hsame, fun h => hfails (h hempty)⟩
    · exact Or.inr ⟨herr, hset, fun _ => hworks⟩
  · rw [if_neg hempty]
    refine ⟨0, s, rfl, Or.inr ⟨rfl, ?_, fun h => absurd h hempty⟩⟩
    -- The action was set for the first handler.
    have haction := hreg.action.mpr hempty
    cases s
    exact congrArg (State.mk _ _ · _) haction

include hobject

theorem store_async (handler : Option Nat) : s.store handler (.async add.object) =
    some { s with objects := Function.update s.objects add.object (some { fields with async := handler }) } := by
  unfold State.store
  dsimp only
  rw [hobject, Option.map_some]

theorem add_busy (addr : Nat) (hasync : fields.async = some addr) : add.call s = some (-EBUSY, s) := by
  unfold Addition.call add_object_handler
  rw [hobject]
  simp only [Option.bind_eq_bind, Option.bind_some]
  rw [hasync, Option.isSome_some, if_pos rfl]
  rfl

theorem add_call (hasync : fields.async = none) : add.call s =
    (snd_async_add_handler add.sys s (.async add.object) fields.fd add.callback add.private_data).bind fun r =>
      if r.1 < 0 then some (r.1, r.2) else (adopt r.2 add.object).map fun s => (0, s) := by
  unfold Addition.call add_object_handler
  rw [hobject]
  simp only [Option.bind_eq_bind, Option.bind_some]
  rw [hasync, Option.isSome_none, if_neg Bool.false_ne_true]
  apply Option.bind_congr
  rintro ⟨err, t⟩ -
  split_ifs
  · rfl
  · exact Option.map_eq_bind.symm

include hreg

theorem add_fails (h : ¬ Succeeds s add) : ∃ ret, ret < 0 ∧ add.call s = some (ret, s) := by
  cases hasync : fields.async with
  | some addr => exact ⟨-EBUSY, by decide, add_busy s add fields hobject addr hasync⟩
  | none =>
    rw [add_call s add fields hobject hasync]
    unfold snd_async_add_handler
    cases hcalloc : add.sys.calloc with
    | none => exact ⟨-ENOMEM, by decide, rfl⟩
    | some addr =>
      dsimp only
      by_cases hset : snd_set_async add.sys.fcntl SIGIO < 0
      · rw [if_pos hset, Option.bind_some, if_pos hset]
        exact ⟨_, hset, rfl⟩
      rw [if_neg hset]
      obtain ⟨err, t, haction, ⟨herr, rfl, -⟩ | ⟨-, -, hworks⟩⟩ := action_spec s hreg add.sys.sigaction
      · rw [haction]
        dsimp only
        rw [if_pos herr, Option.bind_some, if_pos herr]
        exact ⟨err, herr, rfl⟩
      · refine absurd ⟨fun fields' hobject' => ?_, ?_, Int.not_lt.mp hset, hworks⟩ h
        · rw [hobject] at hobject'
          exact Option.some.inj hobject' ▸ hasync
        · rw [hcalloc]
          rfl

omit hreg hobject in
theorem adopt_front (t : State) (h : SndAsyncHandler) (list : List SndAsyncHandler) (o : Object)
    (hlist : t.async_list = h :: list) (hfield : (t.objects o).bind Fields.async = some h.addr)
    (hfresh : ∀ x ∈ list, x.addr ≠ h.addr) : adopt t o = some { t with async_list := h.adopt o :: list } := by
  obtain ⟨fields, hobject, hasync⟩ := Option.bind_eq_some_iff.mp hfield
  unfold adopt
  rw [hobject, Option.bind_eq_bind, Option.bind_some, hasync, Option.bind_eq_bind, Option.bind_some, hlist,
    if_pos ⟨h, List.mem_cons_self, rfl⟩, modify_head h list _ hfresh]
  rfl

theorem add_succeeds (addr : Nat) (hcalloc : add.sys.calloc = some addr)
    (hfresh : ∀ h ∈ s.async_list, h.addr ≠ addr) (h : Succeeds s add) :
    add.call s = some (0, s.added add.object fields (add.handler fields.fd addr)) := by
  obtain ⟨hnone, -, hset, hworks⟩ := h
  rw [add_call s add fields hobject (hnone fields hobject)]
  unfold snd_async_add_handler
  rw [hcalloc]
  dsimp only
  rw [if_neg (Int.not_lt.mpr hset)]
  obtain ⟨err, t, haction, ⟨-, -, hfails⟩ | ⟨rfl, rfl, -⟩⟩ := action_spec s hreg add.sys.sigaction
  · exact absurd hworks hfails
  rw [haction]
  dsimp only
  obtain ⟨new, hnew⟩ : ∃ h : SndAsyncHandler,
    h = ⟨addr, fields.fd, add.callback, add.private_data, none, none⟩ := ⟨_, rfl⟩
  have haddr : new.addr = addr := hnew ▸ rfl
  have hstore := store_async { s with async_list := new :: s.async_list, action := true } add fields hobject (some addr)
  rw [← hnew, if_neg (Int.lt_irrefl 0), hstore]
  have hadopt := adopt_front { s with
      objects := Function.update s.objects add.object (some { fields with async := some addr })
      async_list := new :: s.async_list
      action := true } new s.async_list add.object rfl
    (by dsimp only; rw [Function.update_self, haddr]; rfl) (haddr.symm ▸ hfresh)
  rw [Option.bind_eq_bind, Option.bind_some, Option.pure_def, Option.bind_some, if_neg (Int.lt_irrefl 0), hadopt,
    Option.map_some, hnew]
  rfl

end Add

theorem added_registered (s : State) (o : Object) (fields : Fields) (h : SndAsyncHandler) (hreg : Registered s)
    (hobject : s.objects o = some fields) (hnone : fields.async = none) (hfd : fields.fd = h.fd)
    (hpointer : h.pointer = some (.async o)) (hrecord : h.record = some o)
    (hfresh : ∀ x ∈ s.async_list, x.addr ≠ h.addr) : Registered (s.added o fields h) where
  distinct := distinct_cons hreg.distinct hfresh
  field o' fields' addr hobject' hasync := by
    unfold State.added at hobject' ⊢
    dsimp only at hobject' ⊢
    rcases stored_eq_some.mp hobject' with ⟨rfl, rfl⟩ | ⟨-, hobject'⟩
    · obtain rfl := Option.some.inj hasync
      exact ⟨h, List.mem_cons_self, rfl, hpointer⟩
    · obtain ⟨x, hx, haddr, hpointer'⟩ := hreg.field o' fields' addr hobject' hasync
      exact ⟨x, List.mem_cons_of_mem _ hx, haddr, hpointer'⟩
  owned x hx := by
    unfold State.added at hx ⊢
    dsimp only at hx ⊢
    rcases List.mem_cons.mp hx with rfl | hx
    · exact ⟨o, _, Function.update_self .., rfl, hfd, hpointer, hrecord⟩
    · obtain ⟨o', fields', hobject', hasync, hrest⟩ := hreg.owned x hx
      have ho : o' ≠ o := by
        rintro rfl
        rw [hobject] at hobject'
        obtain rfl := Option.some.inj hobject'
        rw [hnone] at hasync
        cases hasync
      exact ⟨o', fields', stored_eq_some.mpr (.inr ⟨ho, hobject'⟩), hasync, hrest⟩
  action := iff_of_true rfl (List.cons_ne_nil _ _)

/-! ## Deletions -/

def State.deleted (s : State) (o : Object) (fields : Fields) (h : SndAsyncHandler) : State :=
  { s with
    objects := Function.update s.objects o (some { fields with async := none })
    async_list := (unlink SndAsyncHandler.addr h.addr s.async_list).2
    action := if (unlink SndAsyncHandler.addr h.addr s.async_list).2 = [] then false else s.action }

section Del

variable (s : State) (hreg : Registered s)

include hreg

theorem del_absent (handler : Nat) (h : ∀ x ∈ s.async_list, x.addr ≠ handler) :
    snd_async_del_handler s handler = some s := by
  unfold snd_async_del_handler
  rw [unlink_of_absent handler s.async_list h]
  simp only [Option.bind_eq_bind, Option.bind_none, Option.bind_some, Option.pure_def]
  by_cases hempty : s.async_list = []
  · -- Without a handler the action is the default one already.
    have haction : s.action = false := by
      rw [Bool.eq_false_iff]
      exact fun hset => hreg.action.mp hset hempty
    rw [if_pos hempty, ← haction]
  · rw [if_neg hempty]

theorem del_present (h : SndAsyncHandler) (hmem : h ∈ s.async_list) : ∃ o fields, s.objects o = some fields ∧
    fields.async = some h.addr ∧ h.pointer = some (.async o) ∧
    snd_async_del_handler s h.addr = some (s.deleted o fields h) := by
  obtain ⟨o, fields, hobject, hasync, -, hpointer, -⟩ := hreg.owned h hmem
  refine ⟨o, fields, hobject, hasync, hpointer, ?_⟩
  obtain ⟨hfound, -, -⟩ := unlink_of_mem hreg.distinct hmem
  unfold snd_async_del_handler State.deleted
  obtain ⟨⟨found, rest⟩, hunlink⟩ : ∃ r, unlink SndAsyncHandler.addr h.addr s.async_list = r := ⟨_, rfl⟩
  rw [hunlink] at hfound ⊢
  dsimp only at hfound ⊢
  rw [hfound, Option.bind_some, hpointer]
  unfold State.store
  dsimp only
  rw [hobject]
  simp only [Option.bind_eq_bind, Option.map_some, Option.bind_some, Option.pure_def]
  split_ifs
  · rfl
  · rfl

theorem deleted_registered (o : Object) (fields : Fields) (h : SndAsyncHandler) (hmem : h ∈ s.async_list)
    (hobject : s.objects o = some fields) (hasync : fields.async = some h.addr) :
    Registered (s.deleted o fields h) := by
  obtain ⟨-, hsub, hiff⟩ := unlink_of_mem hreg.distinct hmem
  refine ⟨distinct_sublist hreg.distinct hsub, ?_, ?_, ?_⟩
  · intro o' fields' addr hobject' hasync'
    unfold State.deleted at hobject' ⊢
    dsimp only at hobject' ⊢
    rcases stored_eq_some.mp hobject' with ⟨-, rfl⟩ | ⟨ho, hobject'⟩
    · cases hasync'
    · obtain ⟨x, hx, haddr, hpointer⟩ := hreg.field o' fields' addr hobject' hasync'
      refine ⟨x, (hiff x).mpr ⟨hx, ?_⟩, haddr, hpointer⟩
      rintro rfl
      rw [hreg.pointer_of_field hx hobject hasync] at hpointer
      exact ho (Loc.async.inj (Option.some.inj hpointer)).symm
  · intro x hx
    obtain ⟨hold, hne⟩ := (hiff x).mp hx
    obtain ⟨o', fields', hobject', hasync', hrest⟩ := hreg.owned x hold
    have ho : o' ≠ o := by
      rintro rfl
      rw [hobject] at hobject'
      obtain rfl := Option.some.inj hobject'
      rw [hasync] at hasync'
      exact hne (hreg.distinct.eq_of_key hold hmem (Option.some.inj hasync').symm)
    exact ⟨o', fields', stored_eq_some.mpr (.inr ⟨ho, hobject'⟩), hasync', hrest⟩
  · unfold State.deleted
    dsimp only
    by_cases hempty : (unlink SndAsyncHandler.addr h.addr s.async_list).2 = []
    · rw [if_pos hempty]
      exact iff_of_false Bool.false_ne_true fun hne => hne hempty
    · rw [if_neg hempty]
      exact iff_of_true (hreg.action.mpr (List.ne_nil_of_mem hmem)) hempty

end Del

/-! ## Closing an object -/

def State.closed (s : State) (o : Object) : State := { s with objects := Function.update s.objects o none }

theorem closed_registered (s : State) (o : Object) (hreg : Registered s)
    (hnone : ∀ fields, s.objects o = some fields → fields.async = none) : Registered (s.closed o) where
  distinct := hreg.distinct
  field o' fields' addr hobject' hasync := hreg.field o' fields' addr (freed_eq_some.mp hobject').2 hasync
  owned x hx := by
    obtain ⟨o', fields', hobject', hasync', hrest⟩ := hreg.owned x hx
    have ho : o' ≠ o := by
      rintro rfl
      rw [hnone fields' hobject'] at hasync'
      cases hasync'
    exact ⟨o', fields', freed_eq_some.mpr ⟨ho, hobject'⟩, hasync', hrest⟩
  action := hreg.action

theorem close_spec (s : State) (o : Object) (fields : Fields) (hreg : Registered s)
    (hobject : s.objects o = some fields) :
    ∃ s', close_object o s = some (s'.closed o) ∧ Registered s' ∧
      (∀ fields', s'.objects o = some fields' → fields'.async = none) ∧
      ((fields.async = none ∧ s' = s) ∨
        ∃ h ∈ s.async_list, h.pointer = some (.async o) ∧ s' = s.deleted o fields h) := by
  unfold close_object
  rw [hobject]
  simp only [Option.bind_eq_bind, Option.bind_some]
  cases hasync : fields.async with
  | none =>
    refine ⟨s, rfl, hreg, fun fields' hobject' => ?_, Or.inl ⟨rfl, rfl⟩⟩
    rw [hobject] at hobject'
    exact Option.some.inj hobject' ▸ hasync
  | some addr =>
    obtain ⟨h, hmem, rfl, hpointer⟩ := hreg.field o fields addr hobject hasync
    obtain ⟨o', fields', hobject', hasync', hpointer', hdel⟩ := del_present s hreg h hmem
    obtain rfl : o' = o := by
      rw [hpointer'] at hpointer
      exact Loc.async.inj (Option.some.inj hpointer)
    rw [hobject] at hobject'
    obtain rfl := Option.some.inj hobject'
    dsimp only
    rw [hdel]
    refine ⟨_, rfl, deleted_registered s hreg o' fields h hmem hobject hasync, fun fields' hobject' => ?_,
      Or.inr ⟨h, hmem, hpointer, rfl⟩⟩
    unfold State.deleted at hobject'
    dsimp only at hobject'
    rw [Function.update_self] at hobject'
    exact Option.some.inj hobject' ▸ rfl

end Salsa.Async
