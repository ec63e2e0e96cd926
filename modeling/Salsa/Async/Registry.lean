import Salsa.Async.Handlers

/-!
# The registry of handlers over runs

What additions, deletions and closed objects make of the list, and what the program learns of it.
-/

namespace Salsa.Async

open Run Keyed

/-! ## Runs -/

inductive Act where
  | add_pcm (sys : System) (handlerp pcm : Nat) (callback : Option Nat) (private_data : Nat)
  | add_ctl (sys : System) (handler ctl : Nat) (callback : Option Nat) (private_data : Nat)
  | del (handler : Nat)
  | pcm_close (pcm : Nat)
  | ctl_close (ctl : Nat)

def exec (s : State) : Act → Option (Int × State)
  | .add_pcm sys handlerp pcm callback private_data =>
    snd_async_add_pcm_handler sys s handlerp pcm callback private_data
  | .add_ctl sys handler ctl callback private_data =>
    snd_async_add_ctl_handler sys s handler ctl callback private_data
  | .del handler => (snd_async_del_handler s handler).map fun s => (0, s)
  | .pcm_close pcm => (snd_pcm_close s pcm).map fun s => (0, s)
  | .ctl_close ctl => (snd_ctl_close s ctl).map fun s => (0, s)

def step (s : State) (a : Act) : Option State := (exec s a).map (·.2)

def Act.addition : Act → Option Addition
  | .add_pcm sys handlerp pcm callback private_data => some ⟨.pcm pcm, sys, handlerp, callback, private_data⟩
  | .add_ctl sys handler ctl callback private_data => some ⟨.ctl ctl, sys, handler, callback, private_data⟩
  | _ => none

def Act.closed : Act → Option Object
  | .pcm_close pcm => some (.pcm pcm)
  | .ctl_close ctl => some (.ctl ctl)
  | _ => none

/-- The objects of a call are open, and what is allocated is not a handler of the list. -/
structure Allowed (s : State) (a : Act) : Prop where
  open_add : ∀ add, a.addition = some add → (s.objects add.object).isSome
  fresh : ∀ add addr, a.addition = some add → add.sys.calloc = some addr → ∀ h ∈ s.async_list, h.addr ≠ addr
  open_close : ∀ o, a.closed = some o → (s.objects o).isSome

theorem exec_addition (s : State) (a : Act) (add : Addition) (h : a.addition = some add) :
    exec s a = add.call s := by
  cases a with
  | add_pcm sys handlerp pcm callback private_data => obtain rfl := Option.some.inj h; rfl
  | add_ctl sys handler ctl callback private_data => obtain rfl := Option.some.inj h; rfl
  | del handler => cases h
  | pcm_close pcm => cases h
  | ctl_close ctl => cases h

/-! ## What a step does -/

/-- An addition that fails changes nothing, one that succeeds puts a handler of the object in front of the
list, a deletion removes exactly the handler, and a closed object takes its handler with it. -/
structure Kept (s : State) (a : Act) (ret : Int) (s' : State) : Prop where
  failed : ∀ add, a.addition = some add → ret < 0 → s' = s
  added : ∀ add, a.addition = some add → 0 ≤ ret → ∃ fields h, s.objects add.object = some fields ∧
    h.callback = add.callback ∧ h.private_data = add.private_data ∧ s' = s.added add.object fields h
  deleted : ∀ handler, a = .del handler → (∀ h, h ∈ s'.async_list ↔ h ∈ s.async_list ∧ h.addr ≠ handler) ∧
    ∀ o fields, s.objects o = some fields →
      s'.objects o = some (if fields.async = some handler then { fields with async := none } else fields)
  closed : ∀ o, a.closed = some o →
    (∀ h, h ∈ s'.async_list ↔ h ∈ s.async_list ∧ h.pointer ≠ some (.async o)) ∧
      s'.objects = Function.update s.objects o none

def Effective (s : State) (a : Act) : Prop := ∀ ret s', exec s a = some (ret, s') → Kept s a ret s'

/-- A successful addition tells the program its handler. -/
def Handed (s : State) (a : Act) : Prop :=
  ∀ add ret s', a.addition = some add → exec s a = some (ret, s') → 0 ≤ ret →
    ∃ h ∈ s'.async_list, h.pointer = some (.async add.object) ∧ s'.vars add.handlerp = some h.addr

/-- No addition succeeds, unless the program's variable has the address of the new handler already. -/
def Unanswered (s : State) (a : Act) : Prop :=
  ∀ add, a.addition = some add → Succeeds s add → s.vars add.handlerp = add.sys.calloc

def Steps (s : State) (a : Act) : Prop := ∃ ret s', exec s a = some (ret, s') ∧ Registered s' ∧ Kept s a ret s'

theorem kept_add (s s' : State) (a : Act) (add : Addition) (ret : Int) (ha : a.addition = some add)
    (hfailed : ret < 0 → s' = s)
    (hadded : 0 ≤ ret → ∃ fields h, s.objects add.object = some fields ∧ h.callback = add.callback ∧
      h.private_data = add.private_data ∧ s' = s.added add.object fields h) : Kept s a ret s' where
  failed _ _ := hfailed
  added add' ha' := by
    obtain rfl : add' = add := Option.some.inj (ha'.symm.trans ha)
    exact hadded
  deleted handler hdel := by
    subst hdel
    cases ha
  closed o hclosed := by
    cases a with
    | pcm_close pcm => cases ha
    | ctl_close ctl => cases ha
    | _ => cases hclosed

theorem kept_del (s s' : State) (handler : Nat) (ret : Int)
    (hlist : ∀ h, h ∈ s'.async_list ↔ h ∈ s.async_list ∧ h.addr ≠ handler)
    (hobjects : ∀ o fields, s.objects o = some fields →
      s'.objects o = some (if fields.async = some handler then { fields with async := none } else fields)) :
    Kept s (.del handler) ret s' where
  failed _ h := nomatch h
  added _ h := nomatch h
  deleted handler' h := by
    obtain rfl := Act.del.inj h
    exact ⟨hlist, hobjects⟩
  closed _ h := nomatch h

theorem kept_close (s s' : State) (a : Act) (o : Object) (ret : Int) (ha : a.closed = some o)
    (hlist : ∀ h, h ∈ s'.async_list ↔ h ∈ s.async_list ∧ h.pointer ≠ some (.async o))
    (hobjects : s'.objects = Function.update s.objects o none) : Kept s a ret s' where
  failed add h := by
    cases a with
    | pcm_close pcm => cases h
    | ctl_close ctl => cases h
    | _ => cases ha
  added add h := by
    cases a with
    | pcm_close pcm => cases h
    | ctl_close ctl => cases h
    | _ => cases ha
  deleted handler h := by
    subst h
    cases ha
  closed o' h := by
    obtain rfl : o' = o := Option.some.inj (h.symm.trans ha)
    exact ⟨hlist, hobjects⟩

section Step

variable (s : State) (hreg : Registered s)

include hreg

theorem add_steps (a : Act) (add : Addition) (ha : a.addition = some add) (hallowed : Allowed s a) : Steps s a := by
  obtain ⟨fields, hobject⟩ := Option.isSome_iff_exists.mp (hallowed.open_add add ha)
  unfold Steps
  rw [exec_addition s a add ha]
  by_cases hsucceeds : Succeeds s add
  · obtain ⟨hnone, hcalloc, -⟩ := id hsucceeds
    obtain ⟨addr, haddr⟩ := Option.isSome_iff_exists.mp hcalloc
    have hfresh := hallowed.fresh add addr ha haddr
    exact ⟨0, _, add_succeeds s add fields hobject hreg addr haddr hfresh hsucceeds,
      added_registered s _ fields _ hreg hobject (hnone fields hobject) rfl rfl rfl hfresh,
      kept_add s _ a add 0 ha (fun h => absurd h (Int.lt_irrefl 0)) fun _ => ⟨fields, _, hobject, rfl, rfl, rfl⟩⟩
  · obtain ⟨ret, hret, hcall⟩ := add_fails s add fields hobject hreg hsucceeds
    exact ⟨ret, s, hcall, hreg,
      kept_add s s a add ret ha (fun _ => rfl) fun h => absurd hret (Int.not_lt.mpr h)⟩

theorem del_steps (handler : Nat) : Steps s (.del handler) := by
  unfold Steps exec
  dsimp only
  by_cases hmem : ∃ h ∈ s.async_list, h.addr = handler
  · obtain ⟨h, hmem, rfl⟩ := hmem
    obtain ⟨o, fields, hobject, hasync, hpointer, hdel⟩ := del_present s hreg h hmem
    obtain ⟨-, -, hiff⟩ := unlink_of_mem hreg.distinct hmem
    rw [hdel]
    refine ⟨0, _, rfl, deleted_registered s hreg o fields h hmem hobject hasync, kept_del _ _ _ _ ?_ ?_⟩
    · intro x
      have hkey : x ∈ s.async_list → (x ≠ h ↔ x.addr ≠ h.addr) := fun hx =>
        not_congr ⟨fun heq => heq ▸ rfl, fun haddr => hreg.distinct.eq_of_key hx hmem haddr⟩
      exact (hiff x).trans (and_congr_right hkey)
    · intro o' fields' hobject'
      unfold State.deleted
      dsimp only
      by_cases ho : o' = o
      · subst ho
        rw [hobject] at hobject'
        obtain rfl := Option.some.inj hobject'
        rw [Function.update_self, if_pos hasync]
      · have hother : ¬ fields'.async = some h.addr := by
          intro hasync'
          rw [hreg.pointer_of_field hmem hobject' hasync'] at hpointer
          exact ho (Loc.async.inj (Option.some.inj hpointer))
        rw [Function.update_of_ne ho, if_neg hother, hobject']
  · have hnot : ∀ x ∈ s.async_list, x.addr ≠ handler := fun x hx haddr => hmem ⟨x, hx, haddr⟩
    rw [del_absent s hreg handler hnot]
    refine ⟨0, s, rfl, hreg, kept_del _ _ _ _ ?_ ?_⟩
    · exact fun x => ⟨fun hx => ⟨hx, hnot x hx⟩, And.left⟩
    · intro o fields hobject
      have hother : ¬ fields.async = some handler := by
        intro hasync
        obtain ⟨y, hy, haddr, -⟩ := hreg.field o fields handler hobject hasync
        exact hnot y hy haddr
      rw [if_neg hother, hobject]

theorem close_steps (a : Act) (o : Object) (ha : a.closed = some o) (hopen : (s.objects o).isSome)
    (hexec : exec s a = (close_object o s).map fun s => (0, s)) : Steps s a := by
  obtain ⟨fields, hobject⟩ := Option.isSome_iff_exists.mp hopen
  obtain ⟨t, hclose, hreg', hnone, hcases⟩ := close_spec s o fields hreg hobject
  unfold Steps
  rw [hexec, hclose]
  refine ⟨0, _, rfl, closed_registered t o hreg' hnone, kept_close s _ a o 0 ha ?_ ?_⟩
  · intro x
    rcases hcases with ⟨hasync, rfl⟩ | ⟨h, hmem, hpointer, rfl⟩
    · refine ⟨fun hx => ⟨hx, fun hpointer => ?_⟩, And.left⟩
      obtain ⟨fields', hobject', hasync'⟩ := hreg.of_pointer hx hpointer
      rw [hnone fields' hobject'] at hasync'
      cases hasync'
    · obtain ⟨-, -, hiff⟩ := unlink_of_mem hreg.distinct hmem
      have hkey : x ∈ s.async_list → (x ≠ h ↔ x.pointer ≠ some (.async o)) := fun hx =>
        not_congr ⟨fun heq => heq ▸ hpointer, fun hpointer' => hreg.pointer_inj hx hmem hpointer' hpointer⟩
      exact (hiff x).trans (and_congr_right hkey)
  · rcases hcases with ⟨-, rfl⟩ | ⟨h, hmem, hpointer, rfl⟩
    · rfl
    · unfold State.closed State.deleted
      dsimp only
      rw [Function.update_idem]

theorem step_spec (a : Act) (hallowed : Allowed s a) : Steps s a := by
  cases a with
  | add_pcm sys handlerp pcm callback private_data =>
    exact add_steps s hreg _ ⟨.pcm pcm, sys, handlerp, callback, private_data⟩ rfl hallowed
  | add_ctl sys handler ctl callback private_data =>
    exact add_steps s hreg _ ⟨.ctl ctl, sys, handler, callback, private_data⟩ rfl hallowed
  | del handler => exact del_steps s hreg handler
  | pcm_close pcm => exact close_steps s hreg _ (.pcm pcm) rfl (hallowed.open_close _ rfl) rfl
  | ctl_close ctl => exact close_steps s hreg _ (.ctl ctl) rfl (hallowed.open_close _ rfl) rfl

theorem effective (a : Act) (hallowed : Allowed s a) : Effective s a := by
  intro ret s' hexec
  obtain ⟨ret', s'', hexec', -, hkept⟩ := step_spec s hreg a hallowed
  rw [hexec] at hexec'
  obtain ⟨rfl, rfl⟩ := Prod.mk.inj (Option.some.inj hexec')
  exact hkept

theorem handed_iff (a : Act) (hallowed : Allowed s a) : Handed s a ↔ Unanswered s a := by
  constructor
  · intro h add ha hsucceeds
    obtain ⟨fields, hobject⟩ := Option.isSome_iff_exists.mp (hallowed.open_add add ha)
    obtain ⟨hnone, hcalloc, -⟩ := id hsucceeds
    obtain ⟨addr, haddr⟩ := Option.isSome_iff_exists.mp hcalloc
    have hfresh := hallowed.fresh add addr ha haddr
    have hcall := add_succeeds s add fields hobject hreg addr haddr hfresh hsucceeds
    obtain ⟨x, hx, hpointer, hvar⟩ := h add 0 _ ha (by rw [exec_addition s a add ha, hcall]) (Int.le_refl 0)
    have hreg' := added_registered s add.object fields (add.handler fields.fd addr) hreg hobject
      (hnone fields hobject) rfl rfl rfl hfresh
    obtain rfl := hreg'.pointer_inj hx List.mem_cons_self hpointer rfl
    exact hvar.trans haddr.symm
  · intro h add ret s' ha hexec hret
    obtain ⟨fields, hobject⟩ := Option.isSome_iff_exists.mp (hallowed.open_add add ha)
    rw [exec_addition s a add ha] at hexec
    by_cases hsucceeds : Succeeds s add
    · obtain ⟨addr, haddr⟩ := Option.isSome_iff_exists.mp hsucceeds.2.1
      have hcall := add_succeeds s add fields hobject hreg addr haddr (hallowed.fresh add addr ha haddr) hsucceeds
      rw [hcall] at hexec
      obtain ⟨rfl, rfl⟩ := Prod.mk.inj (Option.some.inj hexec)
      exact ⟨_, List.mem_cons_self, rfl, (h add ha hsucceeds).trans haddr⟩
    · obtain ⟨err, herr, hcall⟩ := add_fails s add fields hobject hreg hsucceeds
      rw [hcall] at hexec
      obtain ⟨rfl, -⟩ := Prod.mk.inj (Option.some.inj hexec)
      exact absurd hret (Int.not_le.mpr herr)

end Step

structure Fresh (s : State) : Prop where
  list : s.async_list = []
  action : s.action = false
  objects : ∀ o fields, s.objects o = some fields → fields.async = none

theorem Fresh.registered {s : State} (h : Fresh s) : Registered s where
  distinct := by
    unfold Distinct
    rw [h.list]
    exact List.nodup_nil
  field o fields addr hobject hasync := by
    rw [h.objects o fields hobject] at hasync
    cases hasync
  owned x hx := by
    rw [h.list] at hx
    cases hx
  action := by
    rw [h.list, h.action]
    exact iff_of_false Bool.false_ne_true fun hne => hne rfl

/-- In every run the list and the objects agree and each call has its effect; the program learns the
handlers of exactly those runs in which no addition succeeds, or it knew the addresses before. -/
theorem handlers_registered (s : State) (as : List Act) (hs : Fresh s) (hallowed : AllSteps step Allowed s as) :
    AllStates step (fun s => Registered s ∧ OneEach s) s as ∧ AllSteps step Effective s as ∧
      (AllSteps step Handed s as ↔ AllSteps step Unanswered s as) := by
  have hstep : ∀ s a s', Registered s → Allowed s a → step s a = some s' → Registered s' := by
    intro s a s' hreg ha h
    obtain ⟨ret, t, hexec, hreg', -⟩ := step_spec s hreg a ha
    unfold step at h
    rw [hexec] at h
    exact Option.some.inj h ▸ hreg'
  refine ⟨?_, ?_, ?_⟩
  · refine allStates_of_allSteps Registered _ Allowed (fun s h => ⟨h, h.oneEach⟩) ?_ s as hs.registered hallowed
    intro s a hreg ha
    obtain ⟨ret, t, hexec, hreg', -⟩ := step_spec s hreg a ha
    exact ⟨t, by unfold step; rw [hexec]; rfl, hreg'⟩
  · exact allSteps_of_inv Registered Allowed Effective hstep (fun s a hreg ha => effective s hreg a ha) s as
      hs.registered hallowed
  · have hiff := allSteps_of_inv Registered Allowed (fun s a => Handed s a ↔ Unanswered s a) hstep
      (fun s a hreg ha => handed_iff s hreg a ha) s as hs.registered hallowed
    constructor
    · intro h
      exact allSteps_mono _ _ s as (fun t a _ hboth => hboth.1.mp hboth.2) (allSteps_and _ _ s as hiff h)
    · intro h
      exact allSteps_mono _ _ s as (fun t a _ hboth => hboth.1.mpr hboth.2) (allSteps_and _ _ s as hiff h)

def works (addr : Nat) : System := ⟨some addr, ⟨none, none, none, none⟩, none⟩

/-- Nothing is registered for the objects that are open. -/
def unregistered (is_open : Object → Bool) : State :=
  ⟨fun o => if is_open o then some ⟨3, none⟩ else none, [], false, fun _ => none⟩

theorem unregistered_fresh (is_open : Object → Bool) : Fresh (unregistered is_open) where
  list := rfl
  action := rfl
  objects o fields h := by
    unfold unregistered at h
    dsimp only at h
    split_ifs at h
    obtain rfl := Option.some.inj h
    rfl

/-- A PCM and a control get handlers; the first handler is deleted, and the control is closed with the other. -/
def coming_and_going : List Act :=
  [.add_pcm (works 100) 0 0 none 0, .add_ctl (works 200) 1 1 none 0, .del 100, .ctl_close 1]

def pcm_and_ctl : State := unregistered fun o => o = .pcm 0 ∨ o = .ctl 1

theorem coming_and_going_allowed : AllSteps step Allowed pcm_and_ctl coming_and_going := by
  refine ⟨⟨?_, ?_, fun o h => nomatch h⟩, fun s hs => ⟨⟨?_, ?_, fun o h => nomatch h⟩, fun t ht =>
    ⟨⟨fun add h => (nomatch h), fun add addr h => (nomatch h), fun o h => nomatch h⟩, fun u hu =>
      ⟨⟨fun add h => (nomatch h), fun add addr h => (nomatch h), ?_⟩, fun _ _ => trivial⟩⟩⟩⟩
  · intro add h
    obtain rfl := Option.some.inj h
    rfl
  · intro add addr _ _ x hx
    cases hx
  · have hopen : ((step pcm_and_ctl (.add_pcm (works 100) 0 0 none 0)).map fun s => (s.objects (.ctl 1)).isSome) =
        some true := by decide
    rw [hs] at hopen
    intro add h
    obtain rfl := Option.some.inj h
    exact Option.some.inj hopen
  · have haddrs : ((step pcm_and_ctl (.add_pcm (works 100) 0 0 none 0)).map fun s => s.async_list.map (·.addr)) =
        some [100] := by decide
    rw [hs, Option.map_some, Option.some.injEq] at haddrs
    intro add addr h hcalloc x hx
    obtain rfl := Option.some.inj h
    obtain rfl := Option.some.inj hcalloc
    have hmem := List.mem_map_of_mem (f := (·.addr)) hx
    rw [haddrs, List.mem_singleton] at hmem
    rw [hmem]
    decide
  · have hopen : (((step pcm_and_ctl (.add_pcm (works 100) 0 0 none 0)).bind fun s =>
        step s (.add_ctl (works 200) 1 1 none 0)).bind fun s => (step s (.del 100)).map fun s =>
          (s.objects (.ctl 1)).isSome) = some true := by decide
    rw [hs, Option.bind_some, ht, Option.bind_some, hu] at hopen
    intro o h
    obtain rfl := Option.some.inj h
    exact Option.some.inj hopen

theorem coming_and_going_registered :
    AllStates step (fun s => Registered s ∧ OneEach s) pcm_and_ctl coming_and_going ∧
      AllSteps step Effective pcm_and_ctl coming_and_going ∧
        (AllSteps step Handed pcm_and_ctl coming_and_going ↔ AllSteps step Unanswered pcm_and_ctl coming_and_going) :=
  handlers_registered pcm_and_ctl coming_and_going (unregistered_fresh _) coming_and_going_allowed

def one_pcm : State := unregistered fun o => o = .pcm 0

theorem one_pcm_allowed : AllSteps step Allowed one_pcm [.add_pcm (works 100) 0 0 none 0] := by
  refine ⟨⟨?_, ?_, fun o h => nomatch h⟩, fun _ _ => trivial⟩
  · intro add h
    obtain rfl := Option.some.inj h
    rfl
  · intro add addr _ _ x hx
    cases hx

/-- The handler of a PCM is registered, and the program's variable is as before. -/
theorem handler_not_handed : ¬ ∀ (s : State) (as : List Act), Fresh s → AllSteps step Allowed s as →
    AllSteps step Handed s as := by
  intro hall
  have h := (hall one_pcm _ (unregistered_fresh _) one_pcm_allowed).1
  have hadd : ((exec one_pcm (.add_pcm (works 100) 0 0 none 0)).map fun r => (r.1, r.2.vars 0)) = some (0, none) := by
    decide
  obtain ⟨⟨ret, s'⟩, hexec, heq⟩ := Option.map_eq_some_iff.mp hadd
  obtain ⟨rfl, hvar⟩ := Prod.mk.inj heq
  obtain ⟨x, -, -, hset⟩ := h _ 0 s' rfl hexec (Int.le_refl 0)
  rw [hvar] at hset
  cases hset

end Salsa.Async
