import Salsa.Hctl.Events
import Salsa.Lib.Run

/-!
# Loading an hctl while the card changes

`snd_hctl_load` step by step and `snd_hctl_handle_events` event by event, next to a kernel whose
elements come and go. The load lists the elements first and subscribes to the events last: a
change between the two is never heard of.
-/

namespace Salsa.Hctl

open Ctl Replica Run

/-! ## The kernel -/

/-- Two elements differ in their numid, and in the rest of their ids. -/
def Distinct (a b : SndCtlElemId) : Prop :=
  a.numid ≠ b.numid ∧ { a with numid := 0#32 } ≠ { b with numid := 0#32 }

instance : DecidableRel Distinct := fun _ _ => inferInstanceAs (Decidable (_ ∧ _))

structure KernelElems where
  ids : List SndCtlElemId
  unique : ids.Pairwise Distinct

/-- An id that is taken is refused. -/
def KernelElems.add (k : KernelElems) (id : SndCtlElemId) (h : ∀ elem ∈ k.ids, Distinct elem id) :
    KernelElems :=
  ⟨k.ids ++ [id],
    List.pairwise_append.mpr ⟨k.unique, List.pairwise_singleton _ _,
      fun elem helem _ hid => List.mem_singleton.mp hid ▸ h elem helem⟩⟩

def KernelElems.remove (k : KernelElems) (id : SndCtlElemId) : KernelElems :=
  ⟨k.ids.erase id, k.unique.sublist List.erase_sublist⟩

/-! ## The session -/

/-- `snd_ctl_elem_list_t`; `pids` holds the ids that were filled in. -/
structure SndCtlElemList where
  space : Nat
  used : Nat
  count : Nat
  pids : List SndCtlElemId

/-- How far `snd_hctl_load` has come. -/
inductive Phase where
  | unloaded
  /-- In front of `while (list.count != list.used)`. -/
  | listed (list : SndCtlElemList)
  /-- In front of `snd_ctl_subscribe_events`. -/
  | inserted (list : SndCtlElemList)
  | loaded

structure Session where
  kernel : KernelElems
  subscribed : Bool
  queue : List SndCtlEvent
  hctl : List SndCtlElemId
  phase : Phase

def opened (kernel : KernelElems) : Session :=
  { kernel, subscribed := false, queue := [], hctl := [], phase := .unloaded }

inductive Act where
  | kernel_add (id : SndCtlElemId)
  | kernel_remove (id : SndCtlElemId)
  /-- The value or the info of an element changes. -/
  | kernel_notify (mask : BitVec 32) (id : SndCtlElemId)
  /-- `SNDRV_CTL_IOCTL_ELEM_LIST`, behind the allocation of space if it is not the first. -/
  | list (alloc : Bool) (errno : Nat)
  /-- The insertion of the ids, with the outcome of each allocation. -/
  | insert (alloc : Nat → Bool)
  | subscribe (errno : Nat)
  /-- One round of `snd_hctl_handle_events`. -/
  | handle (alloc : Bool)

/-- The kernel queues an event for a client that is subscribed. -/
def Session.notify (s : Session) (mask : BitVec 32) (id : SndCtlElemId) : Session :=
  if s.subscribed then { s with queue := s.queue ++ [⟨SND_CTL_EVENT_ELEM, mask, id⟩] } else s

/-- The label `_end` with an error. -/
def Session.fail (s : Session) : Session := { s with hctl := [], phase := .unloaded }

def snd_ctl_elem_list (s : Session) (space errno : Nat) : Session :=
  if errno ≠ 0 then s.fail
  else
    { s with
      phase := .listed
        { space, used := min space s.kernel.ids.length, count := s.kernel.ids.length
          pids := s.kernel.ids.take space } }

/-- The loop over the listed ids, from `idx` on. -/
def insert_loop (alloc : Nat → Bool) : Nat → List SndCtlElemId → List SndCtlElemId →
    Option (List SndCtlElemId)
  | _, [], hctl => some hctl
  | idx, id :: pids, hctl => if alloc idx then insert_loop alloc (idx + 1) pids (add_elem_list hctl id) else none

def Session.kernel_add (s : Session) (id : SndCtlElemId) : Session :=
  if h : ∀ elem ∈ s.kernel.ids, Distinct elem id then
    { s.notify SND_CTL_EVENT_MASK_ADD id with kernel := s.kernel.add id h }
  else s

def Session.kernel_remove (s : Session) (id : SndCtlElemId) : Session :=
  if id ∈ s.kernel.ids then
    { s.notify SND_CTL_EVENT_MASK_REMOVE id with kernel := s.kernel.remove id }
  else s

def Session.kernel_notify (s : Session) (mask : BitVec 32) (id : SndCtlElemId) : Session :=
  s.notify (mask &&& (SND_CTL_EVENT_MASK_VALUE ||| SND_CTL_EVENT_MASK_INFO)) id

/-- `snd_hctl_load` up to the test of the loop, or around the loop. -/
def Session.list (s : Session) (alloc : Bool) (errno : Nat) : Session :=
  match s.phase with
  | .unloaded => snd_ctl_elem_list s 0 errno
  | .listed list =>
    if list.count = list.used then s
    else if ¬ alloc then s.fail
    else snd_ctl_elem_list s list.count errno
  | _ => s

/-- The results of the callbacks for the inserted elements are not looked at. -/
def Session.insert (s : Session) (alloc : Nat → Bool) : Session :=
  match s.phase with
  | .listed list =>
    if list.count ≠ list.used then s
    else
      match insert_loop alloc 0 list.pids s.hctl with
      | none => s.fail
      | some hctl => { s with hctl, phase := .inserted list }
  | _ => s

def Session.subscribe (s : Session) (errno : Nat) : Session :=
  match s.phase with
  | .inserted _ => if errno ≠ 0 then s.fail else { s with subscribed := true, phase := .loaded }
  | _ => s

def Session.handle (cb : Callbacks) (s : Session) (alloc : Bool) : Session :=
  match s.phase, s.queue with
  | .loaded, event :: queue =>
    { s with hctl := (snd_hctl_handle_event cb alloc s.hctl event).2, queue }
  | _, _ => s

/-- An action that is not the turn of the client, or that the kernel refuses, does nothing. -/
def step (cb : Callbacks) (s : Session) : Act → Option Session
  | .kernel_add id => some (s.kernel_add id)
  | .kernel_remove id => some (s.kernel_remove id)
  | .kernel_notify mask id => some (s.kernel_notify mask id)
  | .list alloc errno => some (s.list alloc errno)
  | .insert alloc => some (s.insert alloc)
  | .subscribe errno => some (s.subscribe errno)
  | .handle alloc => some (s.handle cb alloc)

/-- With nothing left to handle, the loaded list holds the ids of the kernel's elements. -/
def Mirrors (s : Session) : Prop :=
  s.phase = .loaded → s.queue = [] → (s.hctl : Multiset SndCtlElemId) = s.kernel.ids

/-- Nothing has changed since the list was made when the client becomes a subscriber, and every event
finds its element. -/
def Heard (s : Session) : Act → Prop
  | .subscribe errno =>
    match s.phase with
    | .inserted list => errno = 0 → list.pids.Perm s.kernel.ids
    | _ => True
  | .handle alloc =>
    match s.phase, s.queue with
    | .loaded, event :: _ => Distinguishes alloc s.hctl event
    | _, _ => True
  | _ => True

/-! ## The invariant -/

/-- Until it subscribes the client hears nothing; then its list becomes the kernel's as soon as
the queue is replayed. -/
def Inv (s : Session) : Prop :=
  match s.phase with
  | .unloaded => s.subscribed = false ∧ s.queue = [] ∧ s.hctl = []
  | .listed _ => s.subscribed = false ∧ s.queue = [] ∧ s.hctl = []
  | .inserted list => s.subscribed = false ∧ s.queue = [] ∧ s.hctl = list.pids
  | .loaded => s.subscribed = true ∧ replay (s.queue.map change) s.hctl = (s.kernel.ids : Multiset SndCtlElemId)

theorem Inv.mirrors (s : Session) (h : Inv s) : Mirrors s := by
  intro hphase hqueue
  unfold Inv at h
  rw [hphase] at h
  have hreplay := h.2
  rw [hqueue] at hreplay
  exact hreplay

theorem inv_opened (kernel : KernelElems) : Inv (opened kernel) := ⟨rfl, rfl, rfl⟩

theorem inv_fail (s : Session) (hsubscribed : s.subscribed = false) (hqueue : s.queue = []) :
    Inv s.fail := ⟨hsubscribed, hqueue, rfl⟩

theorem inv_list (s : Session) (space errno : Nat) (hsubscribed : s.subscribed = false)
    (hqueue : s.queue = []) (hhctl : s.hctl = []) : Inv (snd_ctl_elem_list s space errno) := by
  unfold snd_ctl_elem_list
  split
  · exact inv_fail s hsubscribed hqueue
  · exact ⟨hsubscribed, hqueue, hhctl⟩

theorem insert_loop_eq (alloc : Nat → Bool) (idx : Nat) (pids hctl hctl' : List SndCtlElemId)
    (h : insert_loop alloc idx pids hctl = some hctl') : hctl' = hctl ++ pids := by
  induction pids generalizing idx hctl with
  | nil =>
    rw [insert_loop, Option.some.injEq] at h
    rw [← h, List.append_nil]
  | cons id pids ih =>
    unfold insert_loop at h
    split at h
    · rw [ih (idx + 1) _ h, add_elem_list, List.append_assoc]
      rfl
    · exact absurd h (by simp)

theorem inv_notify (s : Session) (kernel : KernelElems) (mask : BitVec 32) (id : SndCtlElemId)
    (h : Inv s)
    (hkernel : (kernel.ids : Multiset SndCtlElemId) =
      (change ⟨SND_CTL_EVENT_ELEM, mask, id⟩).apply s.kernel.ids) :
    Inv { s.notify mask id with kernel } := by
  unfold Inv at h ⊢
  unfold Session.notify
  cases hphase : s.phase with
  | loaded =>
    rw [hphase] at h
    obtain ⟨hsubscribed, hreplay⟩ := h
    simp only [hsubscribed, if_true]
    refine ⟨trivial, ?_⟩
    rw [List.map_append, List.map_singleton, replay_concat, hreplay, hkernel]
  | unloaded | listed list | inserted list =>
    rw [hphase] at h
    simp only [h.1, Bool.false_eq_true, if_false, hphase]
    exact ⟨trivial, h.2⟩

theorem change_add (id : SndCtlElemId) :
    change ⟨SND_CTL_EVENT_ELEM, SND_CTL_EVENT_MASK_ADD, id⟩ = .add id := by
  have hremove : SND_CTL_EVENT_MASK_ADD ≠ SND_CTL_EVENT_MASK_REMOVE := by decide
  have hadd : SND_CTL_EVENT_MASK_ADD &&& SND_CTL_EVENT_MASK_ADD ≠ 0#32 := by decide
  rw [change, if_neg (not_not_intro rfl), if_neg hremove, if_neg hadd]

theorem change_remove (id : SndCtlElemId) :
    change ⟨SND_CTL_EVENT_ELEM, SND_CTL_EVENT_MASK_REMOVE, id⟩ = .remove id := by
  rw [change, if_neg (not_not_intro rfl), if_pos rfl]

theorem change_notify (mask : BitVec 32) (id : SndCtlElemId) :
    change ⟨SND_CTL_EVENT_ELEM,
      mask &&& (SND_CTL_EVENT_MASK_VALUE ||| SND_CTL_EVENT_MASK_INFO), id⟩ = .none := by
  have hbit : mask &&& (SND_CTL_EVENT_MASK_VALUE ||| SND_CTL_EVENT_MASK_INFO) &&&
      SND_CTL_EVENT_MASK_ADD = 0#32 := by
    rw [BitVec.and_assoc]
    exact BitVec.and_zero
  have hremove : mask &&& (SND_CTL_EVENT_MASK_VALUE ||| SND_CTL_EVENT_MASK_INFO) ≠
      SND_CTL_EVENT_MASK_REMOVE := by
    intro heq
    rw [heq] at hbit
    exact absurd hbit (by decide)
  rw [change, if_neg (not_not_intro rfl), if_neg hremove, if_pos hbit]

theorem inv_kernel_add (s : Session) (id : SndCtlElemId) (h : Inv s) : Inv (s.kernel_add id) := by
  unfold Session.kernel_add
  split
  · apply inv_notify s _ _ id h
    rw [change_add]
    exact Multiset.coe_eq_coe.mpr (List.perm_append_singleton id s.kernel.ids)
  · exact h

theorem inv_kernel_remove (s : Session) (id : SndCtlElemId) (h : Inv s) : Inv (s.kernel_remove id) := by
  unfold Session.kernel_remove
  split
  · apply inv_notify s _ _ id h
    rw [change_remove]
    exact (Multiset.coe_erase _ _).symm
  · exact h

theorem inv_kernel_notify (s : Session) (mask : BitVec 32) (id : SndCtlElemId) (h : Inv s) :
    Inv (s.kernel_notify mask id) := by
  have hkernel := inv_notify s s.kernel _ id h (by rw [change_notify mask id]; rfl)
  unfold Session.kernel_notify
  unfold Session.notify at hkernel ⊢
  split_ifs at hkernel ⊢ <;> exact hkernel

theorem inv_load_list (s : Session) (alloc : Bool) (errno : Nat) (h : Inv s) :
    Inv (s.list alloc errno) := by
  have hinv := h
  unfold Inv at h
  unfold Session.list
  cases hphase : s.phase with
  | unloaded =>
    rw [hphase] at h
    exact inv_list s 0 errno h.1 h.2.1 h.2.2
  | listed list =>
    rw [hphase] at h
    dsimp only
    split
    · exact hinv
    · split
      · exact inv_fail s h.1 h.2.1
      · exact inv_list s list.count errno h.1 h.2.1 h.2.2
  | inserted list | loaded => exact hinv

theorem inv_insert (s : Session) (alloc : Nat → Bool) (h : Inv s) : Inv (s.insert alloc) := by
  have hinv := h
  unfold Inv at h
  unfold Session.insert
  cases hphase : s.phase with
  | listed list =>
    rw [hphase] at h
    obtain ⟨hsubscribed, hqueue, hhctl⟩ := h
    dsimp only
    split
    · exact hinv
    · split
      · exact inv_fail s hsubscribed hqueue
      · rename_i hctl hloop
        have heq := insert_loop_eq alloc 0 list.pids s.hctl hctl hloop
        rw [hhctl, List.nil_append] at heq
        exact ⟨hsubscribed, hqueue, heq⟩
  | unloaded | inserted list | loaded => exact hinv

/-- The list is the kernel's if nothing has changed since it was made. -/
theorem inv_subscribe (s : Session) (errno : Nat) (h : Inv s) (hheard : Heard s (.subscribe errno)) :
    Inv (s.subscribe errno) := by
  have hinv := h
  unfold Inv at h
  unfold Heard at hheard
  unfold Session.subscribe
  cases hphase : s.phase with
  | inserted list =>
    rw [hphase] at h hheard
    obtain ⟨hsubscribed, hqueue, hhctl⟩ := h
    dsimp only at hheard ⊢
    split
    · exact inv_fail s hsubscribed hqueue
    · refine ⟨rfl, ?_⟩
      rw [hqueue, List.map_nil, replay_nil, hhctl]
      exact Multiset.coe_eq_coe.mpr (hheard (not_not.mp ‹_›))
  | unloaded | listed list | loaded => exact hinv

theorem inv_handle (cb : Callbacks) (s : Session) (alloc : Bool) (h : Inv s)
    (hheard : Heard s (.handle alloc)) : Inv (s.handle cb alloc) := by
  have hinv := h
  unfold Inv at h
  unfold Heard at hheard
  unfold Session.handle
  cases hphase : s.phase with
  | loaded =>
    rw [hphase] at h hheard
    obtain ⟨hsubscribed, hreplay⟩ := h
    cases hqueue : s.queue with
    | nil => exact hinv
    | cons event queue =>
      rw [hqueue] at hreplay hheard
      refine ⟨hsubscribed, ?_⟩
      rw [handle_event_spec cb alloc s.hctl event hheard]
      exact hreplay
  | unloaded | listed list | inserted list => exact hinv

theorem step_heard (cb : Callbacks) (s s' : Session) (a : Act) (h : Inv s) (hheard : Heard s a)
    (hstep : step cb s a = some s') : Inv s' := by
  cases a with
  | kernel_add id => cases hstep; exact inv_kernel_add s id h
  | kernel_remove id => cases hstep; exact inv_kernel_remove s id h
  | kernel_notify mask id => cases hstep; exact inv_kernel_notify s mask id h
  | list alloc errno => cases hstep; exact inv_load_list s alloc errno h
  | insert alloc => cases hstep; exact inv_insert s alloc h
  | subscribe errno => cases hstep; exact inv_subscribe s errno h hheard
  | handle alloc => cases hstep; exact inv_handle cb s alloc h hheard

/-! ## Whole runs -/

/-- In a run in which every change is heard, the list mirrors the kernel's elements all along. -/
theorem heard_mirrors (cb : Callbacks) (kernel : KernelElems) (acts : List Act)
    (h : AllSteps (step cb) Heard (opened kernel) acts) :
    AllStates (step cb) Mirrors (opened kernel) acts := by
  apply allStates_of_allSteps Inv Mirrors Heard Inv.mirrors _ (opened kernel) acts (inv_opened kernel) h
  intro s a hinv hheard
  obtain ⟨s', hstep⟩ : ∃ s', step cb s a = some s' := by
    cases a <;> exact ⟨_, rfl⟩
  exact ⟨s', hstep, step_heard cb s s' a hinv hheard hstep⟩

/-! A card without elements, on which one appears. -/

def no_elems : KernelElems := ⟨[], List.Pairwise.nil⟩

def no_callbacks : Callbacks := ⟨fun _ _ => 0, fun _ _ => 0⟩

def late_id : SndCtlElemId := { zeroed_id with numid := 1#32 }

/-- The element appears when the client has subscribed. -/
theorem heard_mirrors_late :
    AllStates (step no_callbacks) Mirrors (opened no_elems)
      [.list true 0, .insert fun _ => true, .subscribe 0, .kernel_add late_id, .handle true] := by
  apply heard_mirrors
  refine ⟨trivial, fun s₁ h₁ => ⟨trivial, fun s₂ h₂ => ?_⟩⟩
  cases h₁
  cases h₂
  refine ⟨fun _ => List.Perm.refl _, fun s₃ h₃ => ⟨trivial, fun s₄ h₄ => ?_⟩⟩
  cases h₃
  cases h₄
  refine ⟨⟨rfl, fun elem helem => ?_⟩, fun _ _ => trivial⟩
  exact absurd helem List.not_mem_nil

/-- The element appears before the client subscribes, and is not in the list when all is quiet. -/
theorem late_elem_is_lost :
    ¬ AllStates (step no_callbacks) Mirrors (opened no_elems)
      [.list true 0, .insert fun _ => true, .kernel_add late_id, .subscribe 0] := by
  rintro ⟨-, s₁, h₁, -, s₂, h₂, -, s₃, h₃, -, s₄, h₄, hmirrors⟩
  cases h₁
  cases h₂
  cases h₃
  cases h₄
  have hempty : (0 : Multiset SndCtlElemId) = {late_id} := hmirrors rfl rfl
  exact absurd hempty (Multiset.singleton_ne_zero late_id).symm

end Salsa.Hctl
