import Salsa.Device.Outcomes
import Salsa.Lib.Cells
import Salsa.Lib.Live
import Salsa.Lib.Run
import Mathlib.Data.Finset.Card

/-!
# Who owns a descriptor

The descriptors over all runs of the open and close functions: each belongs to the handles that use it.
-/

namespace Salsa.Device

open Cells Prog Descriptors Pcm Run

/-! ## Handles -/

inductive Handle
  | pcm (addr : Nat)
  | rawmidi (addr : Nat)
deriving DecidableEq

def State.fd_of (s : State) : Handle → Option Nat
  | .pcm p => (s.pcms p).map SndPcm.fd
  | .rawmidi r => (s.rmidis r).map SndRawmidi.fd

inductive Request
  | pcm_open (o : PcmAnswers) (name : List Char) (stream : SndPcmStream) (mode : BitVec 32)
  | pcm_close (pcm : Nat)
  | rawmidi_open (o : RawmidiAnswers) (input output : Bool) (name : List Char) (mode : BitVec 32)
  | rawmidi_close (rmidi : Nat)

/-- The value that is returned, and the handles that are handed out. -/
def exec : Request → Prog State (Int × List Handle)
  | .pcm_open o name stream mode => do
    let (err, pcm) ← snd_pcm_open o name stream mode
    return (err, pcm.toList.map .pcm)
  | .pcm_close pcm => do
    snd_pcm_close pcm
    return (0, [])
  | .rawmidi_open o input output name mode => do
    let (err, in_rmidi, out_rmidi) ← snd_rawmidi_open o input output name mode
    return (err, (in_rmidi.toList ++ out_rmidi.toList).map .rawmidi)
  | .rawmidi_close rmidi => do
    snd_rawmidi_close rmidi
    return (0, [])

def step (s : State) (a : Request) : Option State := (exec a s).map Prod.snd

/-- What the callers promise, and where memory is given out. -/
def Allowed (s : State) : Request → Prop
  | .pcm_open o _ _ _ => ∀ p, o.calloc = some p → s.pcms p = none
  | .pcm_close p => s.pcms p ≠ none
  | .rawmidi_open o input output _ _ => (input ∨ output) ∧ Fresh o s
  | .rawmidi_close r => s.rmidis r ≠ none

/-! ## What is to hold -/

/-- A failed open leaves everything; one that works adds a descriptor for the handles that it hands out. -/
def Opens (s : State) (err : Int) (handles : List Handle) (s' : State) : Prop :=
  (err < 0 ∧ handles = [] ∧ Same s.table s'.table ∧ s'.fd_of = s.fd_of) ∨
    (0 ≤ err ∧ handles ≠ [] ∧ ∃ fd, Opened fd s.table s'.table ∧
      (∀ h ∈ handles, s.fd_of h = none ∧ s'.fd_of h = some fd) ∧ ∀ h, h ∉ handles → s'.fd_of h = s.fd_of h)

/-- The descriptor goes with its last handle. -/
def Closes (s : State) (h : Handle) (s' : State) : Prop :=
  s'.fd_of = Function.update s.fd_of h none ∧ ∃ fd, s.fd_of h = some fd ∧
    ((∃ other, s'.fd_of other = some fd) → Same s.table s'.table) ∧
    ((∀ other, s'.fd_of other ≠ some fd) → Closed fd s.table s'.table)

def Effect (s : State) (result : Int × List Handle) (s' : State) : Request → Prop
  | .pcm_open _ _ _ _ => Opens s result.1 result.2 s'
  | .pcm_close p => Closes s (.pcm p) s'
  | .rawmidi_open _ _ _ _ _ => Opens s result.1 result.2 s'
  | .rawmidi_close r => Closes s (.rawmidi r) s'

def Balanced (s : State) (a : Request) : Prop := ∃ result s', exec a s = some (result, s') ∧ Effect s result s' a

/-- The descriptors of the handles are open. -/
def Kept (s : State) : Prop := ∀ h fd, s.fd_of h = some fd → fd ∈ s.table.fds

/-! ## The invariant -/

/-- The record of a raw MIDI handle counts the handles that use it. -/
def Counted (s : State) (rmidi : SndRawmidi) : Prop :=
  ∃ record, s.hws rmidi.hw = some record ∧ record.fd = rmidi.fd ∧ ∃ users : Finset Nat,
    (∀ r, r ∈ users ↔ ∃ user, s.rmidis r = some user ∧ user.hw = rmidi.hw) ∧ record.opened = users.card

structure Owned (s : State) : Prop where
  kept : Kept s
  alone : ∀ p h fd, s.fd_of (.pcm p) = some fd → s.fd_of h = some fd → h = .pcm p
  counted : ∀ r rmidi, s.rmidis r = some rmidi → Counted s rmidi
  shared : ∀ r r' rmidi rmidi', s.rmidis r = some rmidi → s.rmidis r' = some rmidi' → rmidi.fd = rmidi'.fd →
    rmidi.hw = rmidi'.hw

@[simp] theorem State.fd_of_pcm (s : State) (p : Nat) : s.fd_of (.pcm p) = (s.pcms p).map SndPcm.fd := rfl

@[simp] theorem State.fd_of_rawmidi (s : State) (r : Nat) :
    s.fd_of (.rawmidi r) = (s.rmidis r).map SndRawmidi.fd := rfl

theorem fd_of_eq (s s' : State) (hp : s'.pcms = s.pcms) (hr : s'.rmidis = s.rmidis) : s'.fd_of = s.fd_of := by
  funext h
  cases h with
  | pcm p => rw [State.fd_of_pcm, State.fd_of_pcm, hp]
  | rawmidi r => rw [State.fd_of_rawmidi, State.fd_of_rawmidi, hr]

theorem fd_of_update_pcm (s s' : State) (p : Nat) (record : Option SndPcm)
    (hp : s'.pcms = Function.update s.pcms p record) (hr : s'.rmidis = s.rmidis) :
    s'.fd_of = Function.update s.fd_of (.pcm p) (record.map SndPcm.fd) := by
  funext h
  cases h with
  | pcm q =>
    rw [State.fd_of_pcm, hp]
    by_cases hq : q = p
    · rw [hq, Function.update_self, Function.update_self]
    · have hne : Handle.pcm q ≠ .pcm p := fun heq => hq (Handle.pcm.inj heq)
      rw [Function.update_of_ne hq, Function.update_of_ne hne, State.fd_of_pcm]
  | rawmidi r =>
    have hne : Handle.rawmidi r ≠ .pcm p := Handle.noConfusion
    rw [Function.update_of_ne hne, State.fd_of_rawmidi, State.fd_of_rawmidi, hr]

theorem fd_of_update_rawmidi (s s' : State) (r : Nat) (record : Option SndRawmidi) (hp : s'.pcms = s.pcms)
    (hr : s'.rmidis = Function.update s.rmidis r record) :
    s'.fd_of = Function.update s.fd_of (.rawmidi r) (record.map SndRawmidi.fd) := by
  funext h
  cases h with
  | pcm p =>
    have hne : Handle.pcm p ≠ .rawmidi r := Handle.noConfusion
    rw [Function.update_of_ne hne, State.fd_of_pcm, State.fd_of_pcm, hp]
  | rawmidi q =>
    rw [State.fd_of_rawmidi, hr]
    by_cases hq : q = r
    · rw [hq, Function.update_self, Function.update_self]
    · have hne : Handle.rawmidi q ≠ .rawmidi r := fun heq => hq (Handle.rawmidi.inj heq)
      rw [Function.update_of_ne hq, Function.update_of_ne hne, State.fd_of_rawmidi]

/-! ## What opening and closing preserve -/

theorem kept_opens (s s' : State) (err : Int) (handles : List Handle) (h : Kept s) (hopens : Opens s err handles s') :
    Kept s' := by
  intro x fd hx
  rcases hopens with ⟨-, -, hsame, hfd⟩ | ⟨-, -, new, hopened, hnew, hold⟩
  · rw [hfd] at hx
    rw [hsame.fds]
    exact h x fd hx
  · rw [hopened.fds]
    by_cases hmem : x ∈ handles
    · rw [(hnew x hmem).2] at hx
      exact Option.some.inj hx ▸ Finset.mem_insert_self new _
    · rw [hold x hmem] at hx
      exact Finset.mem_insert_of_mem (h x fd hx)

theorem Closes.old {s s' : State} {x : Handle} (hcloses : Closes s x s') (y : Handle) (fd : Nat)
    (hy : s'.fd_of y = some fd) : s.fd_of y = some fd := by
  rw [hcloses.1] at hy
  exact (freed_eq_some.mp hy).2

theorem kept_closes (s s' : State) (x : Handle) (h : Kept s) (hcloses : Closes s x s') : Kept s' := by
  intro y fd' hy
  have hold := hcloses.old y fd' hy
  obtain ⟨-, fd, hx, hshared, hlast⟩ := hcloses
  by_cases hother : ∃ other, s'.fd_of other = some fd
  · rw [(hshared hother).fds]
    exact h y fd' hold
  · have hne : fd' ≠ fd := by
      rintro rfl
      exact hother ⟨y, hy⟩
    rw [(hlast fun other heq => hother ⟨other, heq⟩).fds]
    exact Finset.mem_erase_of_ne_of_mem hne (h y fd' hold)

theorem counted_keep (s s' : State) (rmidi : SndRawmidi) (h : Counted s rmidi) (hr : s'.rmidis = s.rmidis)
    (hw : ∀ x, s.hws x ≠ none → s'.hws x = s.hws x) : Counted s' rmidi := by
  obtain ⟨record, hrecord, hfd, users, husers, hopened⟩ := h
  have hlive : s.hws rmidi.hw ≠ none := by
    rw [hrecord]
    exact Option.some_ne_none record
  refine ⟨record, (hw _ hlive).trans hrecord, hfd, users, ?_, hopened⟩
  rw [hr]
  exact husers

theorem owned_keep (s s' : State) (h : Owned s) (ht : Same s.table s'.table) (hp : s'.pcms = s.pcms)
    (hr : s'.rmidis = s.rmidis) (hw : ∀ x, s.hws x ≠ none → s'.hws x = s.hws x) : Owned s' where
  kept := kept_opens s s' (-1) [] h.kept (Or.inl ⟨by decide, rfl, ht, fd_of_eq s s' hp hr⟩)
  alone := by
    rw [fd_of_eq s s' hp hr]
    exact h.alone
  counted r rmidi hrmidi := by
    rw [hr] at hrmidi
    exact counted_keep s s' rmidi (h.counted r rmidi hrmidi) hr hw
  shared := by
    rw [hr]
    exact h.shared

theorem Owned.free {s : State} (h : Owned s) {fd : Nat} (hfd : fd ∉ s.table.fds) (x : Handle) : s.fd_of x ≠ some fd :=
  fun hx => hfd (h.kept x fd hx)

theorem owned_pcm_opened (s s' : State) (p : Nat) (pcm : SndPcm) (h : Owned s)
    (ht : Opened pcm.fd s.table s'.table) (hfree : s.pcms p = none)
    (hp : s'.pcms = Function.update s.pcms p (some pcm)) (hr : s'.rmidis = s.rmidis) (hw : s'.hws = s.hws) :
    Owned s' ∧ Opens s 0 [.pcm p] s' := by
  have hfd := fd_of_update_pcm s s' p (some pcm) hp hr
  have hopens : Opens s 0 [.pcm p] s' := by
    refine Or.inr ⟨Int.le_refl 0, List.cons_ne_nil _ _, pcm.fd, ht, ?_, ?_⟩
    · intro x hx
      obtain rfl := List.mem_singleton.mp hx
      rw [hfd, Function.update_self, State.fd_of_pcm, hfree]
      exact ⟨rfl, rfl⟩
    · intro x hx
      have hne : x ≠ .pcm p := fun heq => hx (List.mem_singleton.mpr heq)
      rw [hfd, Function.update_of_ne hne]
  refine ⟨⟨kept_opens s s' 0 _ h.kept hopens, ?_, ?_, ?_⟩, hopens⟩
  · intro q x fd hq hx
    rw [hfd] at hq hx
    by_cases hqp : Handle.pcm q = .pcm p
    · by_cases hxp : x = .pcm p
      · exact hxp.trans hqp.symm
      · -- Another handle does not use what was opened just now.
        rw [hqp, Function.update_self] at hq
        rw [Function.update_of_ne hxp, ← hq] at hx
        exact absurd hx (h.free ht.new x)
    · rw [Function.update_of_ne hqp] at hq
      by_cases hxp : x = .pcm p
      · rw [hxp, Function.update_self] at hx
        rw [← hx] at hq
        exact absurd hq (h.free ht.new _)
      · rw [Function.update_of_ne hxp] at hx
        exact h.alone q x fd hq hx
  · intro r rmidi hrmidi
    rw [hr] at hrmidi
    exact counted_keep s s' rmidi (h.counted r rmidi hrmidi) hr fun x _ => congrFun hw x
  · rw [hr]
    exact h.shared

theorem made_fd_of (s s' : State) (fd hw : Nat) (handles : List Nat) (h : Made s fd hw handles s') :
    (∀ x ∈ handles.map Handle.rawmidi, s'.fd_of x = some fd) ∧
      ∀ x, x ∉ handles.map Handle.rawmidi → s'.fd_of x = s.fd_of x := by
  constructor
  · intro x hx
    obtain ⟨r, hr, rfl⟩ := List.mem_map.mp hx
    obtain ⟨rmidi, hrmidi, hfd, -⟩ := h.handle r hr
    rw [State.fd_of_rawmidi, hrmidi, Option.map_some, hfd]
  · intro x hx
    cases x with
    | pcm p => rw [State.fd_of_pcm, State.fd_of_pcm, h.pcms]
    | rawmidi r =>
      have hr : r ∉ handles := fun hmem => hx (List.mem_map_of_mem hmem)
      rw [State.fd_of_rawmidi, State.fd_of_rawmidi, h.rest r hr]

theorem counted_made (s s' : State) (fd hw : Nat) (handles : List Nat) (h : Owned s)
    (hmade : Made s fd hw handles s') (hfree : s.hws hw = none) (hnew : ∀ r ∈ handles, s.rmidis r = none)
    (r : Nat) (rmidi : SndRawmidi) (hr : s'.rmidis r = some rmidi) : Counted s' rmidi := by
  obtain ⟨name, hhws⟩ := hmade.hws
  by_cases hmem : r ∈ handles
  · obtain ⟨rmidi', hr', hfd, hrhw⟩ := hmade.handle r hmem
    obtain rfl : rmidi' = rmidi := Option.some.inj (hr'.symm.trans hr)
    refine ⟨⟨name, fd, handles.length⟩, ?_, hfd.symm, handles.toFinset, fun x => ?_, ?_⟩
    · rw [hhws, hrhw, Function.update_self]
    · rw [List.mem_toFinset, hrhw]
      constructor
      · intro hx
        obtain ⟨user, huser, -, huserhw⟩ := hmade.handle x hx
        exact ⟨user, huser, huserhw⟩
      · rintro ⟨user, huser, huserhw⟩
        by_contra hx
        rw [hmade.rest x hx] at huser
        obtain ⟨record, hrecord, -⟩ := h.counted x user huser
        rw [huserhw, hfree] at hrecord
        cases hrecord
    · rw [List.toFinset_card_of_nodup hmade.nodup]
  · rw [hmade.rest r hmem] at hr
    obtain ⟨record, hrecord, hfd, users, husers, hopened⟩ := h.counted r rmidi hr
    have hne : rmidi.hw ≠ hw := by
      intro heq
      rw [heq, hfree] at hrecord
      cases hrecord
    refine ⟨record, ?_, hfd, users, fun x => ?_, hopened⟩
    · rw [hhws, Function.update_of_ne hne]
      exact hrecord
    · rw [husers x]
      by_cases hx : x ∈ handles
      · obtain ⟨new, hxnew, -, hnewhw⟩ := hmade.handle x hx
        rw [hnew x hx, hxnew]
        constructor
        · rintro ⟨user, huser, -⟩
          cases huser
        · rintro ⟨user, huser, huserhw⟩
          obtain rfl := Option.some.inj huser
          exact absurd (huserhw.symm.trans hnewhw) hne
      · rw [hmade.rest x hx]

theorem owned_rawmidi_opened (s s' : State) (fd hw : Nat) (handles : List Nat) (h : Owned s)
    (ht : Opened fd s.table s'.table) (hmade : Made s fd hw handles s') (hfree : s.hws hw = none)
    (hnew : ∀ r ∈ handles, s.rmidis r = none) (hsome : handles ≠ []) :
    Owned s' ∧ Opens s 0 (handles.map .rawmidi) s' := by
  obtain ⟨hfds, hrest⟩ := made_fd_of s s' fd hw handles hmade
  have hopens : Opens s 0 (handles.map .rawmidi) s' := by
    refine Or.inr ⟨Int.le_refl 0, fun hnil => hsome (List.map_eq_nil_iff.mp hnil), fd, ht, fun x hx => ?_, hrest⟩
    refine ⟨?_, hfds x hx⟩
    obtain ⟨r, hr, rfl⟩ := List.mem_map.mp hx
    rw [State.fd_of_rawmidi, hnew r hr]
    rfl
  refine ⟨⟨kept_opens s s' 0 _ h.kept hopens, ?_, counted_made s s' fd hw handles h hmade hfree hnew, ?_⟩, hopens⟩
  · intro p x y hp hx
    rw [State.fd_of_pcm, hmade.pcms, ← State.fd_of_pcm] at hp
    by_cases hmem : x ∈ handles.map Handle.rawmidi
    · rw [hfds x hmem] at hx
      rw [← hx] at hp
      exact absurd hp (h.free ht.new _)
    · rw [hrest x hmem] at hx
      exact h.alone p x y hp hx
  · -- Only new handles use what was opened just now.
    have hold : ∀ r rmidi, r ∉ handles → s'.rmidis r = some rmidi → rmidi.fd ≠ fd := by
      rintro r rmidi hr hrmidi rfl
      rw [hmade.rest r hr] at hrmidi
      refine h.free ht.new (.rawmidi r) ?_
      rw [State.fd_of_rawmidi, hrmidi]
      rfl
    intro r r' rmidi rmidi' hr hr' heq
    by_cases hmem : r ∈ handles <;> by_cases hmem' : r' ∈ handles
    · obtain ⟨x, hx, -, hxhw⟩ := hmade.handle r hmem
      obtain ⟨x', hx', -, hxhw'⟩ := hmade.handle r' hmem'
      rw [hr] at hx
      rw [hr'] at hx'
      rw [Option.some.inj hx, Option.some.inj hx', hxhw, hxhw']
    · obtain ⟨x, hx, hxfd, -⟩ := hmade.handle r hmem
      rw [hr] at hx
      rw [← Option.some.inj hx] at hxfd
      exact absurd (heq.symm.trans hxfd) (hold r' rmidi' hmem' hr')
    · obtain ⟨x, hx, hxfd, -⟩ := hmade.handle r' hmem'
      rw [hr'] at hx
      rw [← Option.some.inj hx] at hxfd
      exact absurd (heq.trans hxfd) (hold r rmidi hmem hr)
    · rw [hmade.rest r hmem] at hr
      rw [hmade.rest r' hmem'] at hr'
      exact h.shared r r' rmidi rmidi' hr hr' heq

theorem alone_closes (s s' : State) (x : Handle) (h : Owned s) (hcloses : Closes s x s') (p : Nat) (y : Handle)
    (fd : Nat) (hp : s'.fd_of (.pcm p) = some fd) (hy : s'.fd_of y = some fd) : y = .pcm p :=
  h.alone p y fd (hcloses.old _ fd hp) (hcloses.old y fd hy)

theorem snd_pcm_close_wp (s : State) (p : Nat) (pcm : SndPcm) (h : Owned s) (hp : s.pcms p = some pcm) :
    Wp (snd_pcm_close p) s fun _ s' => Owned s' ∧ Closes s (.pcm p) s' := by
  have hfd : s.fd_of (.pcm p) = some pcm.fd := by
    rw [State.fd_of_pcm, hp]
    rfl
  apply wp_get
  rw [hp]
  apply wp_bind
  refine sys_wp _ _ _ ((closeFile_wp pcm.fd s.table (h.kept _ _ hfd)).mono fun _ t ⟨hclosed, _⟩ => ?_)
  apply wp_modify
  generalize hs' : ({ s with table := t, pcms := Function.update s.pcms p none } : State) = s'
  have ht : s'.table = t := hs' ▸ rfl
  have hpcms : s'.pcms = Function.update s.pcms p none := hs' ▸ rfl
  have hrmidis : s'.rmidis = s.rmidis := hs' ▸ rfl
  have hhws : s'.hws = s.hws := hs' ▸ rfl
  have hnew := fd_of_update_pcm s s' p none hpcms hrmidis
  have hnone : ∀ other, s'.fd_of other ≠ some pcm.fd := by
    intro other heq
    rw [hnew] at heq
    obtain ⟨hother, hold⟩ := freed_eq_some.mp heq
    exact hother (h.alone p other pcm.fd hfd hold)
  have hcloses : Closes s (.pcm p) s' :=
    ⟨hnew, pcm.fd, hfd, fun ⟨other, heq⟩ => absurd heq (hnone other), fun _ => ht ▸ hclosed⟩
  refine ⟨⟨kept_closes s s' _ h.kept hcloses, alone_closes s s' _ h hcloses, ?_, ?_⟩, hcloses⟩
  · intro r rmidi hr
    rw [hrmidis] at hr
    exact counted_keep s s' rmidi (h.counted r rmidi hr) hrmidis fun x _ => congrFun hhws x
  · rw [hrmidis]
    exact h.shared

/-! ## Raw MIDI handles -/

section Release

variable {s s' : State} {r : Nat} {rmidi : SndRawmidi} {record : SndRawmidiHw} {users : Finset Nat}

/-- Those that use the record of `r` use its descriptor, and nothing else does. -/
theorem Owned.users_iff (h : Owned s) (hr : s.rmidis r = some rmidi)
    (husers : ∀ q, q ∈ users ↔ ∃ user, s.rmidis q = some user ∧ user.hw = rmidi.hw) (x : Handle) :
    s.fd_of x = some rmidi.fd ↔ ∃ q ∈ users, x = .rawmidi q := by
  have hfd : s.fd_of (.rawmidi r) = some rmidi.fd := by
    rw [State.fd_of_rawmidi, hr]
    rfl
  constructor
  · intro hx
    cases x with
    | pcm p => exact nomatch h.alone p (.rawmidi r) rmidi.fd hx hfd
    | rawmidi q =>
      rw [State.fd_of_rawmidi] at hx
      obtain ⟨user, hq, huser⟩ := Option.map_eq_some_iff.mp hx
      exact ⟨q, (husers q).mpr ⟨user, hq, h.shared q r user rmidi hq hr huser⟩, rfl⟩
  · rintro ⟨q, hq, rfl⟩
    obtain ⟨user, hq, huser⟩ := (husers q).mp hq
    obtain ⟨record, hrecord, hrfd, -⟩ := h.counted q user hq
    obtain ⟨record', hrecord', hrfd', -⟩ := h.counted r rmidi hr
    rw [huser, hrecord'] at hrecord
    rw [State.fd_of_rawmidi, hq, Option.map_some, ← hrfd, ← Option.some.inj hrecord, hrfd']

theorem counted_release (h : Owned s) (hr : s.rmidis r = some rmidi) (hrecord : s.hws rmidi.hw = some record)
    (husers : ∀ q, q ∈ users ↔ ∃ user, s.rmidis q = some user ∧ user.hw = rmidi.hw)
    (hopened : record.opened = users.card) (hrmidis : s'.rmidis = Function.update s.rmidis r none)
    (hrest : ∀ x, x ≠ rmidi.hw → s'.hws x = s.hws x)
    (hlast : users = {r} ∨ s'.hws rmidi.hw = some { record with opened := record.opened - 1 })
    (q : Nat) (user : SndRawmidi) (hq : s'.rmidis q = some user) : Counted s' user := by
  rw [hrmidis] at hq
  obtain ⟨hqr, hq⟩ := freed_eq_some.mp hq
  obtain ⟨other, hother, hfd, others, hothers, hcount⟩ := h.counted q user hq
  by_cases hhw : user.hw = rmidi.hw
  · have hmem : q ∈ users := (husers q).mpr ⟨user, hq, hhw⟩
    rcases hlast with hlast | hlast
    · rw [hlast] at hmem
      exact absurd (Finset.mem_singleton.mp hmem) hqr
    · rw [hhw, hrecord] at hother
      have hmemr : r ∈ users := (husers r).mpr ⟨rmidi, hr, rfl⟩
      refine ⟨_, hhw ▸ hlast, ?_, users.erase r, fun x => ?_, ?_⟩
      · rw [← hfd, Option.some.inj hother]
      · rw [Finset.mem_erase, husers x, hhw, hrmidis]
        constructor
        · rintro ⟨hne, u, hu, huhw⟩
          exact ⟨u, freed_eq_some.mpr ⟨hne, hu⟩, huhw⟩
        · rintro ⟨u, hu, huhw⟩
          obtain ⟨hne, hu⟩ := freed_eq_some.mp hu
          exact ⟨hne, u, hu, huhw⟩
      · have hpos : 0 < users.card := Finset.card_pos.mpr ⟨r, hmemr⟩
        show record.opened - 1 = _
        rw [Finset.card_erase_of_mem hmemr, hopened]
        omega
  · refine ⟨other, (hrest _ hhw).trans hother, hfd, others, fun x => ?_, hcount⟩
    rw [hothers x, hrmidis]
    refine exists_congr fun u => and_congr_left fun huhw => ?_
    rw [freed_eq_some]
    refine ⟨fun hu => ⟨?_, hu⟩, fun hu => hu.2⟩
    rintro rfl
    rw [hr] at hu
    exact hhw (huhw.symm.trans (congrArg _ (Option.some.inj hu).symm))

theorem closes_release (h : Owned s) (hr : s.rmidis r = some rmidi)
    (husers : ∀ q, q ∈ users ↔ ∃ user, s.rmidis q = some user ∧ user.hw = rmidi.hw) (hpcms : s'.pcms = s.pcms)
    (hrmidis : s'.rmidis = Function.update s.rmidis r none)
    (ht : (users = {r} ∧ Closed rmidi.fd s.table s'.table) ∨ (users ≠ {r} ∧ Same s.table s'.table)) :
    Closes s (.rawmidi r) s' := by
  have hnew := fd_of_update_rawmidi s s' r none hpcms hrmidis
  have hmem : r ∈ users := (husers r).mpr ⟨rmidi, hr, rfl⟩
  have hiff : ∀ x, s'.fd_of x = some rmidi.fd ↔ x ≠ .rawmidi r ∧ ∃ q ∈ users, x = .rawmidi q := by
    intro x
    rw [hnew]
    by_cases hx : x = .rawmidi r
    · rw [hx, Function.update_self]
      exact ⟨fun h => (nomatch h), fun h => absurd rfl h.1⟩
    · rw [Function.update_of_ne hx, h.users_iff hr husers x]
      exact ⟨fun h => ⟨hx, h⟩, fun h => h.2⟩
  refine ⟨hnew, rmidi.fd, by rw [State.fd_of_rawmidi, hr]; rfl, ?_, ?_⟩
  · rintro ⟨x, hx⟩
    obtain ⟨hne, q, hq, rfl⟩ := (hiff x).mp hx
    rcases ht with ⟨hone, -⟩ | ⟨-, hsame⟩
    · rw [hone] at hq
      exact absurd (congrArg Handle.rawmidi (Finset.mem_singleton.mp hq)) hne
    · exact hsame
  · intro hnone
    rcases ht with ⟨-, hclosed⟩ | ⟨hmore, -⟩
    · exact hclosed
    · refine absurd (Finset.eq_singleton_iff_unique_mem.mpr ⟨hmem, fun q hq => ?_⟩) hmore
      by_contra hqr
      exact hnone (.rawmidi q) ((hiff _).mpr ⟨fun heq => hqr (Handle.rawmidi.inj heq), q, hq, rfl⟩)

theorem owned_release (h : Owned s) (hr : s.rmidis r = some rmidi) (hrecord : s.hws rmidi.hw = some record)
    (husers : ∀ q, q ∈ users ↔ ∃ user, s.rmidis q = some user ∧ user.hw = rmidi.hw)
    (hopened : record.opened = users.card) (hpcms : s'.pcms = s.pcms)
    (hrmidis : s'.rmidis = Function.update s.rmidis r none) (hrest : ∀ x, x ≠ rmidi.hw → s'.hws x = s.hws x)
    (hlast : (users = {r} ∧ Closed rmidi.fd s.table s'.table) ∨
      (users ≠ {r} ∧ Same s.table s'.table ∧ s'.hws rmidi.hw = some { record with opened := record.opened - 1 })) :
    Owned s' ∧ Closes s (.rawmidi r) s' := by
  have hcloses := closes_release h hr husers hpcms hrmidis (hlast.imp_right fun h => ⟨h.1, h.2.1⟩)
  have hcounted := counted_release h hr hrecord husers hopened hrmidis hrest
    (hlast.imp (fun h => h.1) fun h => h.2.2)
  refine ⟨⟨kept_closes s s' _ h.kept hcloses, alone_closes s s' _ h hcloses, hcounted, ?_⟩, hcloses⟩
  intro q q' x x' hq hq' heq
  rw [hrmidis] at hq hq'
  obtain ⟨-, hq⟩ := freed_eq_some.mp hq
  obtain ⟨-, hq'⟩ := freed_eq_some.mp hq'
  exact h.shared q q' x x' hq hq' heq

end Release

theorem snd_rawmidi_close_wp (s : State) (r : Nat) (rmidi : SndRawmidi) (h : Owned s) (hr : s.rmidis r = some rmidi) :
    Wp (snd_rawmidi_close r) s fun _ s' => Owned s' ∧ Closes s (.rawmidi r) s' := by
  obtain ⟨record, hrecord, hfd, users, husers, hopened⟩ := h.counted r rmidi hr
  have hmem : r ∈ users := (husers r).mpr ⟨rmidi, hr, rfl⟩
  have hopen : record.fd ∈ s.table.fds := by
    rw [hfd]
    refine h.kept (.rawmidi r) rmidi.fd ?_
    rw [State.fd_of_rawmidi, hr]
    rfl
  apply wp_get
  rw [hr]
  apply wp_bind
  apply wp_get
  rw [hrecord]
  apply wp_ite
  · intro hzero
    have hone : users = {r} := by
      obtain ⟨q, hq⟩ := Finset.card_eq_one.mp (by omega : users.card = 1)
      rw [hq] at hmem ⊢
      rw [Finset.mem_singleton.mp hmem]
    apply wp_bind
    refine sys_wp _ _ _ ((closeFile_wp record.fd s.table hopen).mono fun _ t ⟨hclosed, _⟩ => ?_)
    apply wp_modify
    apply wp_modify
    refine owned_release h hr hrecord husers hopened rfl rfl (fun x hx => ?_) (Or.inl ⟨hone, hfd ▸ hclosed⟩)
    exact Function.update_of_ne hx _ _
  · intro hmore
    have hne : users ≠ {r} := by
      rintro rfl
      rw [Finset.card_singleton] at hopened
      omega
    apply wp_modify
    apply wp_modify
    refine owned_release h hr hrecord husers hopened rfl rfl (fun x hx => ?_)
      (Or.inr ⟨hne, Same.refl _, Function.update_self _ _ _⟩)
    exact Function.update_of_ne hx _ _

/-! ## Opening a PCM -/

/-- What keeps an open call in order: `errno` is not 0 where the ioctl for a subdevice succeeds, and memory
does not run out between the two handles. -/
def Sound (s : State) : Request → Prop
  | .pcm_open o name _ _ => ∀ device t, _snd_dev_get_device o.lookup name s.table = some (.ok device, t) →
      0 ≤ device.subdev → ¬ Prompts o.subdev t
  | .pcm_close _ => True
  | .rawmidi_open o input output name _ => ∀ device t,
      _snd_dev_get_device o.lookup name s.table = some (.ok device, t) →
        (0 ≤ device.subdev → ¬ Prompts o.subdev t) ∧ ¬ (Gets o device.subdev ∧ HalfMade o input output)
  | .rawmidi_close _ => True

theorem opens_failed (s : State) (t : Table) (err : Int) (h : Owned s) (ht : Same s.table t) (herr : err < 0) :
    Owned { s with table := t } ∧ Opens s err [] { s with table := t } :=
  ⟨owned_keep s _ h ht rfl rfl fun _ _ => rfl, Or.inl ⟨herr, rfl, ht, fd_of_eq _ _ rfl rfl⟩⟩

theorem pcm_open_wp (o : PcmAnswers) (name : List Char) (stream : SndPcmStream) (mode : BitVec 32) (s : State)
    (h : Owned s) (hallowed : Allowed s (.pcm_open o name stream mode))
    (hsound : Sound s (.pcm_open o name stream mode)) :
    Wp (exec (.pcm_open o name stream mode)) s fun result s' => Owned s' ∧ Opens s result.1 result.2 s' := by
  apply wp_bind
  apply wp_bind
  obtain ⟨r, t1, hlookup, hsame, herr⟩ := get_device_wp o.lookup name s.table
  refine sys_wp _ _ _ ⟨r, t1, hlookup, ?_⟩
  cases r with
  | error err => exact wp_pure _ _ _ (wp_pure _ _ _ (opens_failed s t1 err h hsame (herr err rfl)))
  | ok device =>
    apply wp_bind
    refine sys_wp _ _ _ ((open_pcm_device_wp o device.subdev t1 (hsound device t1 hlookup)).mono fun r t2 hr => ?_)
    obtain ⟨fd, subdev⟩ := r
    rcases hr with ⟨hneg, hsame'⟩ | ⟨hpos, hopened⟩
    · have hneg : fd < 0 := hneg
      apply wp_ite _ _ _ _ (fun _ => ?_) fun hnot => absurd hneg hnot
      exact wp_pure _ _ _ (wp_pure _ _ _ (opens_failed s t2 fd h (hsame.trans hsame') hneg))
    · have hpos : 0 ≤ fd := hpos
      apply wp_ite _ _ _ _ (fun hneg => absurd hneg (Int.not_lt.mpr hpos)) fun _ => ?_
      have hopened := hsame.opened hopened
      apply wp_bind
      refine (init_pcm_wp o stream mode device subdev fd _).mono fun result s3 ⟨hsame', hhws, hrmidis, hresult⟩ => ?_
      have hopened : Opened fd.toNat s.table s3.table := hopened.same hsame'
      rcases hresult with ⟨err, rfl, herr, hpcms⟩ | ⟨p, pcm, rfl, hcalloc, hfd, hpcms⟩
      · apply wp_bind
        refine sys_wp _ _ _ ((closeFile_wp fd.toNat s3.table hopened.mem).mono fun _ t4 ⟨hclosed, _⟩ => ?_)
        have hsame := hopened.closed hclosed
        refine wp_pure _ _ _ (wp_pure _ _ _ ⟨owned_keep s _ h hsame hpcms hrmidis fun x _ => congrFun hhws x, ?_⟩)
        exact Or.inl ⟨herr, rfl, hsame, fd_of_eq s _ hpcms hrmidis⟩
      · refine wp_pure _ _ _ (wp_pure _ _ _ ?_)
        exact owned_pcm_opened s s3 p pcm h (hfd ▸ hopened) (hallowed p hcalloc) hpcms hrmidis hhws

/-- Descriptor 0 is taken for a new one, or closed. -/
theorem not_opens_of_prompts (s s' : State) (t : Table) (err : Int) (handles : List Handle) (hsame : Same s.table t)
    (h : (0 ≤ err ∧ Same t s'.table) ∨ (err < 0 ∧ Closed 0 t s'.table)) : ¬ Opens s err handles s' := by
  rintro (⟨hneg, -, hkept, -⟩ | ⟨hpos, -, fd, hopened, -⟩)
  · rcases h with ⟨hpos, -⟩ | ⟨-, hclosed⟩
    · exact absurd hneg (Int.not_lt.mpr hpos)
    · exact not_same_of_closed (hsame.closed hclosed) hkept
  · rcases h with ⟨-, hsame'⟩ | ⟨hneg, -⟩
    · exact not_opened_of_same (hsame.trans hsame') hopened
    · exact absurd hneg (Int.not_lt.mpr hpos)

theorem bind_sys_eq_some {α β : Type} (m : Prog Table α) (f : α → Prog State β) (s s' : State) (b : β)
    (h : (sys m >>= f) s = some (b, s')) :
    ∃ a t, m s.table = some (a, t) ∧ f a { s with table := t } = some (b, s') := by
  obtain ⟨a, s1, hsys, hrest⟩ := bind_eq_some _ _ _ _ _ h
  obtain ⟨⟨a', t⟩, hm, heq⟩ := Option.map_eq_some_iff.mp hsys
  obtain ⟨rfl, rfl⟩ := Prod.mk.inj heq
  exact ⟨a', t, hm, hrest⟩

theorem closeFile_eq_some (fd : Nat) (t t' : Table) (u : Unit) (h : closeFile fd t = some (u, t')) :
    Closed fd t t' := by
  by_cases hmem : fd ∈ t.fds
  · exact ((closeFile_wp fd t hmem).unique h).1
  · rw [closeFile_none fd t hmem] at h
    cases h

theorem pcm_open_unsound (o : PcmAnswers) (name : List Char) (stream : SndPcmStream) (mode : BitVec 32) (s s' : State)
    (result : Int × List Handle) (hsound : ¬ Sound s (.pcm_open o name stream mode))
    (hexec : exec (.pcm_open o name stream mode) s = some (result, s')) : ¬ Opens s result.1 result.2 s' := by
  simp only [Sound, not_forall, not_not] at hsound
  obtain ⟨device, t1, hlookup, hsubdev, hprompts⟩ := hsound
  have hsame := ((get_device_wp o.lookup name s.table).unique hlookup).1
  obtain ⟨⟨err, pcm⟩, s1, hopen, hrest⟩ := bind_eq_some _ _ _ _ _ hexec
  obtain ⟨rfl, rfl⟩ := Prod.mk.inj (Option.some.inj hrest)
  obtain ⟨r, t, hget, hopen⟩ := bind_sys_eq_some _ _ _ _ _ hopen
  rw [hlookup] at hget
  obtain ⟨rfl, rfl⟩ := Prod.mk.inj (Option.some.inj hget)
  obtain ⟨⟨fd, subdev⟩, t2, hpcm, hopen⟩ := bind_sys_eq_some _ _ _ _ _ hopen
  refine not_opens_of_prompts s s1 t1 err _ hsame ?_
  rcases open_pcm_device_prompts o device.subdev t1 t2 _ hsubdev hprompts hpcm with ⟨hzero, hsame'⟩ | ⟨hneg, hclosed⟩
  · obtain rfl : fd = 0 := hzero
    obtain ⟨result, s4, hinit, hopen⟩ := bind_eq_some _ _ _ _ _ hopen
    obtain ⟨hsame'', -, -, hresult⟩ := (init_pcm_wp o stream mode device subdev 0 _).unique hinit
    have hsame' := hsame'.trans hsame''
    rcases hresult with ⟨err', rfl, herr, -⟩ | ⟨p, record, rfl, -⟩
    · obtain ⟨u, t5, hzero, hopen⟩ := bind_sys_eq_some _ _ _ _ _ hopen
      obtain ⟨heq, rfl⟩ := Prod.mk.inj (Option.some.inj hopen)
      obtain ⟨rfl, -⟩ := Prod.mk.inj heq
      exact Or.inr ⟨herr, hsame'.closed (closeFile_eq_some 0 _ t5 u hzero)⟩
    · obtain ⟨heq, rfl⟩ := Prod.mk.inj (Option.some.inj hopen)
      obtain ⟨rfl, -⟩ := Prod.mk.inj heq
      exact Or.inl ⟨Int.le_refl 0, hsame'⟩
  · have hneg : fd < 0 := hneg
    simp only [hneg, if_true] at hopen
    obtain ⟨heq, rfl⟩ := Prod.mk.inj (Option.some.inj hopen)
    obtain ⟨rfl, -⟩ := Prod.mk.inj heq
    exact Or.inr ⟨hneg, hclosed⟩

/-! ## Opening raw MIDI -/

theorem made_new (o : RawmidiAnswers) (s : State) (input output : Bool) (h : Fresh o s) :
    ∀ r ∈ (if input then o.input.calloc else none).toList ++ (if output then o.output.calloc else none).toList,
      s.rmidis r = none := by
  intro r hr
  rcases List.mem_append.mp hr with hr | hr
  · have hr := Option.mem_toList.mp hr
    split at hr
    · exact h.input r hr
    · cases hr
  · have hr := Option.mem_toList.mp hr
    split at hr
    · exact h.output r hr
    · cases hr

theorem initiates_opens (o : RawmidiAnswers) (input output : Bool) (s s' : State) (t : Table) (fd : Nat)
    (in_rmidi out_rmidi : Option Nat) (h : Owned s) (hwanted : input ∨ output) (hfresh : Fresh o s)
    (hopened : Opened fd s.table t)
    (hinit : Initiates o input output { s with table := t } fd (.ok (in_rmidi, out_rmidi)) s') :
    Owned s' ∧ Opens s 0 ((in_rmidi.toList ++ out_rmidi.toList).map .rawmidi) s' := by
  obtain ⟨hsame, ⟨err, herr, -⟩ | ⟨err, hw, r, herr, -⟩ | hok⟩ := hinit
  · cases herr
  · cases herr
  obtain ⟨hw, r, r', heq, -, hhw, hin, hout, hin_some, hout_some, hmade⟩ := hok
  obtain ⟨rfl, rfl⟩ := Prod.mk.inj (Except.ok.inj heq)
  refine owned_rawmidi_opened s s' fd hw _ h (hopened.same hsame) hmade.over (hfresh.hw hw hhw) ?_ ?_
  · rw [hin, hout]
    exact made_new o s input output hfresh
  · intro hnil
    obtain ⟨hin_nil, hout_nil⟩ := List.append_eq_nil_iff.mp hnil
    rcases hwanted with hinput | houtput
    · exact hin_some hinput (Option.toList_eq_nil_iff.mp hin_nil)
    · exact hout_some houtput (Option.toList_eq_nil_iff.mp hout_nil)

theorem rawmidi_open_wp (o : RawmidiAnswers) (input output : Bool) (name : List Char) (mode : BitVec 32) (s : State)
    (h : Owned s) (hallowed : Allowed s (.rawmidi_open o input output name mode))
    (hsound : Sound s (.rawmidi_open o input output name mode)) :
    Wp (exec (.rawmidi_open o input output name mode)) s fun result s' =>
      Owned s' ∧ Opens s result.1 result.2 s' := by
  obtain ⟨hwanted, hfresh⟩ := hallowed
  apply wp_bind
  apply wp_bind
  obtain ⟨r, t1, hlookup, hsame, herr⟩ := get_device_wp o.lookup name s.table
  refine sys_wp _ _ _ ⟨r, t1, hlookup, ?_⟩
  cases r with
  | error err => exact wp_pure _ _ _ (wp_pure _ _ _ (opens_failed s t1 err h hsame (herr err rfl)))
  | ok device =>
    obtain ⟨hprompts, hnot⟩ := hsound device t1 hlookup
    apply wp_bind
    refine sys_wp _ _ _ ((open_rawmidi_device_wp o device.subdev t1 hprompts).mono fun fd t2 hr => ?_)
    rcases hr with ⟨hneg, hsame', -⟩ | ⟨hpos, hopened, hgets⟩
    · rw [if_pos hneg]
      exact wp_pure _ _ _ (wp_pure _ _ _ (opens_failed s t2 fd h (hsame.trans hsame') hneg))
    · rw [if_neg (Int.not_lt.mpr hpos)]
      have hhalf : ¬ HalfMade o input output := fun hhalf => hnot ⟨hgets, hhalf⟩
      have hopened := hsame.opened hopened
      have hinit := init_rawmidi_wp o input output name mode fd { s with table := t2 }
        ⟨hfresh.hw, hfresh.input, hfresh.output, hfresh.apart⟩
      apply wp_bind
      refine hinit.mono fun result s3 hinit => ?_
      cases result with
      | ok handles =>
        exact wp_pure _ _ _ (wp_pure _ _ _
          (initiates_opens o input output s s3 t2 fd.toNat _ _ h hwanted hfresh hopened hinit))
      | error failed =>
        obtain ⟨hsame', ⟨err, herr, hneg, -, hpcms, hrmidis, hhws⟩ | ⟨err, hw, r, -, hhalf', -⟩ | hok⟩ := hinit
        · obtain rfl := Except.error.inj herr
          have hopened := hopened.same hsame'
          apply wp_bind
          refine sys_wp _ _ _ ((closeFile_wp fd.toNat s3.table hopened.mem).mono fun _ t4 ⟨hclosed, _⟩ => ?_)
          have hsame := hopened.closed hclosed
          refine wp_pure _ _ _ (wp_pure _ _ _ ⟨owned_keep s _ h hsame hpcms hrmidis hhws, ?_⟩)
          exact Or.inl ⟨hneg, rfl, hsame, fd_of_eq s _ hpcms hrmidis⟩
        · exact absurd hhalf' hhalf
        · obtain ⟨hw, r, r', heq, -⟩ := hok
          cases heq

/-- The handle that closes the descriptor is followed by one more `close`. -/
theorem error_rawmidi_made (s s' s'' : State) (fd err : Int) (hw r : Nat) (result : Int × Option Nat × Option Nat)
    (h : Made s fd.toNat hw [r] s') : error_rawmidi (some r) fd err s' ≠ some (result, s'') := by
  intro herror
  obtain ⟨rmidi, hr, hfd, hrhw⟩ := h.handle r List.mem_cons_self
  obtain ⟨name, hhws⟩ := h.hws
  have hrecord : s'.hws rmidi.hw = some ⟨name, fd.toNat, 1⟩ := by
    rw [hhws, hrhw, Function.update_self]
    rfl
  obtain ⟨_, s1, hclose, hagain⟩ := bind_eq_some _ _ _ _ _ herror
  obtain ⟨_, t, htwice, -⟩ := bind_sys_eq_some _ _ _ _ _ hagain
  obtain ⟨a, s3, hget, hclose⟩ := bind_eq_some _ _ _ _ _ hclose
  obtain ⟨rfl, rfl⟩ := Prod.mk.inj (Option.some.inj hget)
  rw [hr] at hclose
  obtain ⟨_, s4, hrelease, hset⟩ := bind_eq_some _ _ _ _ _ hclose
  obtain ⟨-, rfl⟩ := Prod.mk.inj (Option.some.inj hset)
  obtain ⟨a, s5, hget, hrelease⟩ := bind_eq_some _ _ _ _ _ hrelease
  obtain ⟨rfl, rfl⟩ := Prod.mk.inj (Option.some.inj hget)
  rw [hrecord] at hrelease
  obtain ⟨_, t', honce, hset⟩ := bind_sys_eq_some _ _ _ _ _ hrelease
  obtain ⟨-, rfl⟩ := Prod.mk.inj (Option.some.inj hset)
  have hgone : fd.toNat ∉ t'.fds := by
    rw [(closeFile_eq_some _ _ _ _ honce).fds]
    exact Finset.notMem_erase _ _
  exact hgone (closeFile_eq_some _ _ _ _ htwice).old

theorem rawmidi_open_unsound (o : RawmidiAnswers) (input output : Bool) (name : List Char) (mode : BitVec 32)
    (s s' : State) (result : Int × List Handle) (hallowed : Allowed s (.rawmidi_open o input output name mode))
    (hsound : ¬ Sound s (.rawmidi_open o input output name mode))
    (hexec : exec (.rawmidi_open o input output name mode) s = some (result, s')) :
    ¬ Opens s result.1 result.2 s' := by
  have hfresh := hallowed.2
  obtain ⟨device, t1, hlookup, hbad⟩ : ∃ device t, _snd_dev_get_device o.lookup name s.table =
      some (.ok device, t) ∧ ((0 ≤ device.subdev ∧ Prompts o.subdev t) ∨
        ((0 ≤ device.subdev → ¬ Prompts o.subdev t) ∧ Gets o device.subdev ∧ HalfMade o input output)) := by
    by_contra hnone
    refine hsound fun device t hlookup => ?_
    have hprompts : 0 ≤ device.subdev → ¬ Prompts o.subdev t := fun hsubdev hprompts =>
      hnone ⟨device, t, hlookup, Or.inl ⟨hsubdev, hprompts⟩⟩
    exact ⟨hprompts, fun hhalf => hnone ⟨device, t, hlookup, Or.inr ⟨hprompts, hhalf⟩⟩⟩
  have hsame := ((get_device_wp o.lookup name s.table).unique hlookup).1
  obtain ⟨⟨err, in_rmidi, out_rmidi⟩, s1, hopen, hrest⟩ := bind_eq_some _ _ _ _ _ hexec
  obtain ⟨rfl, rfl⟩ := Prod.mk.inj (Option.some.inj hrest)
  obtain ⟨r, t, hget, hopen⟩ := bind_sys_eq_some _ _ _ _ _ hopen
  rw [hlookup] at hget
  obtain ⟨rfl, rfl⟩ := Prod.mk.inj (Option.some.inj hget)
  obtain ⟨fd, t2, hrmidi, hopen⟩ := bind_sys_eq_some _ _ _ _ _ hopen
  have hinit := init_rawmidi_wp o input output name mode fd { s with table := t2 }
    ⟨hfresh.hw, hfresh.input, hfresh.output, hfresh.apart⟩
  rcases hbad with ⟨hsubdev, hprompts⟩ | ⟨hprompts, hgets, hhalf⟩
  · refine not_opens_of_prompts s s1 t1 err _ hsame ?_
    rcases open_rawmidi_device_prompts o device.subdev t1 t2 fd hsubdev hprompts hrmidi with
      ⟨rfl, hsame'⟩ | ⟨hneg, hclosed⟩
    · obtain ⟨result, s4, hstart, hopen⟩ := bind_eq_some _ _ _ _ _ hopen
      obtain ⟨hsame'', ⟨err', rfl, hneg, -⟩ | ⟨err', hw, r, rfl, -, hmade⟩ | ⟨hw, r, r', rfl, -⟩⟩ := hinit.unique hstart
      · obtain ⟨u, t5, hzero, hopen⟩ := bind_sys_eq_some _ _ _ _ _ hopen
        obtain ⟨heq, rfl⟩ := Prod.mk.inj (Option.some.inj hopen)
        obtain ⟨rfl, -⟩ := Prod.mk.inj heq
        exact Or.inr ⟨hneg, (hsame'.trans hsame'').closed (closeFile_eq_some 0 _ t5 u hzero)⟩
      · exact absurd hopen (error_rawmidi_made _ _ _ _ _ _ _ _ hmade)
      · obtain ⟨heq, rfl⟩ := Prod.mk.inj (Option.some.inj hopen)
        obtain ⟨rfl, -⟩ := Prod.mk.inj heq
        exact Or.inl ⟨Int.le_refl 0, hsame'.trans hsame''⟩
    · rw [if_pos hneg] at hopen
      obtain ⟨heq, rfl⟩ := Prod.mk.inj (Option.some.inj hopen)
      obtain ⟨rfl, -⟩ := Prod.mk.inj heq
      exact Or.inr ⟨hneg, hclosed⟩
  · obtain ⟨-, -, hnot⟩ | ⟨hpos, -, -⟩ := (open_rawmidi_device_wp o device.subdev t1 hprompts).unique hrmidi
    · exact absurd hgets hnot
    rw [if_neg (Int.not_lt.mpr hpos)] at hopen
    obtain ⟨result, s4, hstart, hopen⟩ := bind_eq_some _ _ _ _ _ hopen
    obtain ⟨-, ⟨err', rfl, -, hnot, -⟩ | ⟨err', hw, r, rfl, -, hmade⟩ | ⟨hw, r, r', rfl, hnot, -⟩⟩ :=
      hinit.unique hstart
    · exact absurd hhalf hnot
    · exact absurd hopen (error_rawmidi_made _ _ _ _ _ _ _ _ hmade)
    · exact absurd hhalf hnot

/-! ## Runs -/

def start (table : Table) : State := ⟨table, fun _ => none, fun _ => none, fun _ => none⟩

theorem owned_start (table : Table) : Owned (start table) where
  kept h fd hfd := by cases h <;> cases hfd
  alone p h fd hp _ := by cases hp
  counted r rmidi hr := by cases hr
  shared r r' rmidi rmidi' hr _ _ := by cases hr

theorem exec_wp (s : State) (a : Request) (h : Owned s) (hallowed : Allowed s a) (hsound : Sound s a) :
    Wp (exec a) s fun result s' => Owned s' ∧ Effect s result s' a := by
  cases a with
  | pcm_open o name stream mode => exact pcm_open_wp o name stream mode s h hallowed hsound
  | pcm_close p =>
    obtain ⟨pcm, hp⟩ := Option.ne_none_iff_exists'.mp hallowed
    apply wp_bind
    exact (snd_pcm_close_wp s p pcm h hp).mono fun _ s' hs' => wp_pure _ s' _ hs'
  | rawmidi_open o input output name mode => exact rawmidi_open_wp o input output name mode s h hallowed hsound
  | rawmidi_close r =>
    obtain ⟨rmidi, hr⟩ := Option.ne_none_iff_exists'.mp hallowed
    apply wp_bind
    exact (snd_rawmidi_close_wp s r rmidi h hr).mono fun _ s' hs' => wp_pure _ s' _ hs'

theorem sound_of_balanced (s : State) (a : Request) (hallowed : Allowed s a) (h : Balanced s a) : Sound s a := by
  obtain ⟨result, s', hexec, heffect⟩ := h
  by_contra hsound
  cases a with
  | pcm_open o name stream mode => exact pcm_open_unsound o name stream mode s s' result hsound hexec heffect
  | pcm_close p => exact hsound trivial
  | rawmidi_open o input output name mode =>
    exact rawmidi_open_unsound o input output name mode s s' result hallowed hsound hexec heffect
  | rawmidi_close r => exact hsound trivial

theorem owned_step (s s' : State) (a : Request) (h : Owned s) (hallowed : Allowed s a) (hsound : Sound s a)
    (hstep : step s a = some s') : Owned s' := by
  obtain ⟨⟨result, s''⟩, hexec, rfl⟩ := Option.map_eq_some_iff.mp hstep
  exact ((exec_wp s a h hallowed hsound).unique hexec).1

/-- Along a run the descriptors are in order exactly when every open call is sound: each failed open
leaves the descriptors as they were, each that works adds one, and each goes with its last handle. -/
theorem descriptors_balanced_iff (table : Table) (as : List Request) (h : AllSteps step Allowed (start table) as) :
    (AllStates step Kept (start table) as ∧ AllSteps step Balanced (start table) as) ↔
      AllSteps step Sound (start table) as := by
  constructor
  · rintro ⟨-, hbalanced⟩
    refine allSteps_of_inv Owned (fun s a => Allowed s a ∧ Balanced s a) Sound ?_ ?_ _ as (owned_start table)
      (allSteps_and _ _ _ as h hbalanced)
    · intro s a s' hs ⟨hallowed, hbalanced⟩ hstep
      exact owned_step s s' a hs hallowed (sound_of_balanced s a hallowed hbalanced) hstep
    · exact fun s a _ ha => sound_of_balanced s a ha.1 ha.2
  · intro hsound
    have hboth := allSteps_and _ _ _ as h hsound
    constructor
    · refine allStates_of_allSteps Owned Kept _ (fun s hs => hs.kept) ?_ _ as (owned_start table) hboth
      intro s a hs ⟨hallowed, hsound⟩
      obtain ⟨result, s', hexec, hs', -⟩ := exec_wp s a hs hallowed hsound
      refine ⟨s', ?_, hs'⟩
      unfold step
      rw [hexec]
      rfl
    · refine allSteps_of_inv Owned _ Balanced ?_ ?_ _ as (owned_start table) hboth
      · exact fun s a s' hs ha hstep => owned_step s s' a hs ha.1 ha.2 hstep
      · intro s a hs ⟨hallowed, hsound⟩
        obtain ⟨result, s', hexec, -, heffect⟩ := exec_wp s a hs hallowed hsound
        exact ⟨result, s', hexec, heffect⟩

/-! ## Runs that are in order, and others -/

def next_free : OpenAnswer where
  fails := none
  pick fds := fds.sup id + 1
  unused := Live.above_notMem

def stdio : Table where
  fds := {0, 1, 2}
  file fd := fd
  files := 3
  errno := 0
  opened := by decide

def one_card : Lookup where
  path := ⟨next_free, .ok ⟨0, "PCH".toList⟩⟩
  access _ := none
  card _ := ⟨next_free, .ok ⟨0, "PCH".toList⟩⟩

/-- Everything works, but for the memory of the output. -/
def rawmidi_answers (output : Option Nat) : RawmidiAnswers where
  lookup := one_card
  subdev := ⟨next_free, none, next_free⟩
  device := next_free
  info := .ok 0
  pversion := none
  hw := some 0
  strdup := true
  input := ⟨some 0, none⟩
  output := ⟨output, none⟩

def rawmidi_duplex (output : Option Nat) : Request :=
  .rawmidi_open (rawmidi_answers output) true true "hw".toList 0#32

theorem duplex_allowed (output : Option Nat) (h : output ≠ some 0) :
    Allowed (start stdio) (rawmidi_duplex output) where
  left := Or.inl rfl
  right := {
    hw := fun _ _ => rfl
    input := fun _ _ => rfl
    output := fun _ _ => rfl
    apart := fun _ hr hin => h (hr.trans hin.symm) }

theorem duplex_balanced :
    AllStates step Kept (start stdio) [rawmidi_duplex (some 1), .rawmidi_close 0, .rawmidi_close 1] ∧
      AllSteps step Balanced (start stdio) [rawmidi_duplex (some 1), .rawmidi_close 0, .rawmidi_close 1] := by
  refine (descriptors_balanced_iff stdio [rawmidi_duplex (some 1), .rawmidi_close 0, .rawmidi_close 1] ?_).mpr ?_
  · refine ⟨duplex_allowed _ (by decide), fun s hs => ?_⟩
    cases hs
    refine ⟨Option.some_ne_none _, fun s hs => ?_⟩
    cases hs
    exact ⟨Option.some_ne_none _, fun _ _ => trivial⟩
  · refine ⟨fun device t hlookup => ?_, fun _ _ => ⟨trivial, fun _ _ => ⟨trivial, fun _ _ => trivial⟩⟩⟩
    cases hlookup
    exact ⟨fun hsubdev => absurd hsubdev (by decide), fun h => nomatch h.2.2.2.2.2.2⟩

/-- The input is closed with the descriptor, and the descriptor once more. -/
theorem duplex_closed_twice : AllSteps step Allowed (start stdio) [rawmidi_duplex none] ∧
    ¬ AllSteps step Balanced (start stdio) [rawmidi_duplex none] := by
  refine ⟨⟨duplex_allowed none (by decide), fun _ _ => trivial⟩, ?_⟩
  rintro ⟨⟨result, s', hexec, -⟩, -⟩
  have hnone : exec (rawmidi_duplex none) (start stdio) = none := rfl
  rw [hnone] at hexec
  cases hexec

/-- Standard input is taken for the subdevice. -/
example (input : Except Errno Int) (calloc : Option Nat) : ¬ Balanced (start stdio) (.pcm_open
    ⟨one_card, ⟨next_free, none, next_free⟩, next_free, input, none, .ok 0, none, calloc, none, none, true, none⟩
    "hw:0,0,1".toList .playback 0#32) := by
  intro h
  have hlookup : _snd_dev_get_device one_card "hw:0,0,1".toList stdio = some (.ok ⟨0, 0, 1⟩, stdio) := rfl
  refine sound_of_balanced (start stdio) _ ?_ h ⟨0, 0, 1⟩ stdio hlookup (by decide) ⟨rfl, rfl, rfl⟩
  exact fun _ _ => rfl

end Salsa.Device
