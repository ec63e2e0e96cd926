import Salsa.Device.Handles
import Salsa.Device.Ownership

/-!
# The books of the handles

What each call leaves of the descriptors and of the copies of names, and so any run of them.
-/

namespace Salsa.Device.Handles

open Prog Descriptors Run

/-! ## What a handle has -/

section Records

variable (s : State)

theorem fd_of_set_ctl (ctl : Nat) (record : Option SndCtl) :
    (s.set_ctl ctl record).fd_of = Function.update s.fd_of (.ctl ctl) (record.map SndCtl.fd) := by
  funext x
  cases x with
  | ctl c =>
    unfold State.fd_of State.set_ctl
    rcases eq_or_ne c ctl with rfl | hne <;> simp [*]
  | _ => rfl

theorem fd_of_set_hwdep (hwdep : Nat) (record : Option SndHwdep) :
    (s.set_hwdep hwdep record).fd_of = Function.update s.fd_of (.hwdep hwdep) (record.map SndHwdep.fd) := by
  funext x
  cases x with
  | hwdep h =>
    unfold State.fd_of State.set_hwdep
    rcases eq_or_ne h hwdep with rfl | hne <;> simp [*]
  | _ => rfl

theorem fd_of_set_timer (timer : Nat) (record : Option SndTimer) :
    (s.set_timer timer record).fd_of = Function.update s.fd_of (.timer timer) (record.map SndTimer.fd) := by
  funext x
  cases x with
  | timer t =>
    unfold State.fd_of State.set_timer
    rcases eq_or_ne t timer with rfl | hne <;> simp [*]
  | _ => rfl

theorem name_of_set_hwdep (hwdep : Nat) (record : Option SndHwdep) :
    (s.set_hwdep hwdep record).name_of = Function.update s.name_of (.hwdep hwdep) (record.bind SndHwdep.name) := by
  funext x
  cases x with
  | hwdep h =>
    unfold State.name_of State.set_hwdep
    rcases eq_or_ne h hwdep with rfl | hne <;> simp [*]
  | _ => rfl

theorem name_of_set_timer (timer : Nat) (record : Option SndTimer) :
    (s.set_timer timer record).name_of = Function.update s.name_of (.timer timer) (record.bind SndTimer.name) := by
  funext x
  cases x with
  | timer t =>
    unfold State.name_of State.set_timer
    rcases eq_or_ne t timer with rfl | hne <;> simp [*]
  | _ => rfl

end Records

/-! ## The books -/

structure Opens (s s' : State) (x : Handle) (fd : Nat) (copy : Option Nat) : Prop where
  free : s.fd_of x = none
  unnamed : s.name_of x = none
  table : Opened fd s.table s'.table
  fd_of : s'.fd_of = Function.update s.fd_of x (some fd)
  name_of : s'.name_of = Function.update s.name_of x copy
  names : (copy = none ∧ s'.names = s.names) ∨
    ∃ addr text, copy = some addr ∧ s.names addr = none ∧ s'.names = Function.update s.names addr (some text)

structure Closes (s s' : State) (x : Handle) (fd : Nat) : Prop where
  held : s.fd_of x = some fd
  table : Closed fd s.table s'.table
  fd_of : s'.fd_of = Function.update s.fd_of x none
  name_of : s'.name_of = Function.update s.name_of x none
  names : s'.names = s.names

theorem Unchanged.fd_of {s s' : State} (h : Unchanged s s') : s'.fd_of = s.fd_of := by
  funext x
  cases x with
  | ctl c => exact congrArg (Option.map SndCtl.fd) (congrFun h.ctls c)
  | hwdep d => exact congrArg (Option.map SndHwdep.fd) (congrFun h.hwdeps d)
  | timer t => exact congrArg (Option.map SndTimer.fd) (congrFun h.timers t)

theorem Unchanged.name_of {s s' : State} (h : Unchanged s s') : s'.name_of = s.name_of := by
  funext x
  cases x with
  | ctl c => rfl
  | hwdep d => exact congrArg (fun r => Option.bind r SndHwdep.name) (congrFun h.hwdeps d)
  | timer t => exact congrArg (fun r => Option.bind r SndTimer.name) (congrFun h.timers t)

theorem Books.unchanged {table : Table} {s s' : State} {l : List Nat} (h : Books table (s, l))
    (hsame : Unchanged s s') : Books table (s', l) where
  fds := by
    rw [hsame.fd_of, hsame.table.fds]
    exact h.fds
  names := by
    rw [hsame.name_of, hsame.names]
    exact h.names
  nodup := h.nodup

theorem Books.opens {table : Table} {s s' : State} {l : List Nat} {x : Handle} {fd : Nat} {copy : Option Nat}
    (h : Books table (s, l)) (hopens : Opens s s' x fd copy) : Books table (s', l) where
  fds := by
    have hlive : {fd | fd ∈ s'.table.fds} = insert fd {fd | fd ∈ s.table.fds} := by
      ext y
      simp [hopens.table.fds]
    rw [hopens.fd_of, hlive]
    exact h.fds.acquire x fd hopens.free hopens.table.new
  names := by
    obtain ⟨rfl, hnames⟩ | ⟨addr, text, rfl, hfree, hnames⟩ := hopens.names
    · rw [hopens.name_of, hnames, Function.update_eq_self_iff.mpr hopens.unnamed.symm]
      exact h.names
    · have hlive : {copy | s'.names copy ≠ none} = insert addr {copy | s.names copy ≠ none} := by
        ext y
        rw [hnames]
        rcases eq_or_ne y addr with rfl | hne <;> simp [*]
      rw [hopens.name_of, hlive]
      exact h.names.acquire x addr hopens.unnamed (not_not.mpr hfree)
  nodup := h.nodup

theorem Books.closes {table : Table} {s s' : State} {l : List Nat} {x : Handle} {fd : Nat} (h : Books table (s, l))
    (hcloses : Closes s s' x fd) : Books table (s', (s.name_of x).toList ++ l) where
  fds := by
    have hlive : {fd | fd ∈ s'.table.fds} = {fd | fd ∈ s.table.fds} \ {fd} := by
      ext y
      simp [hcloses.table.fds, and_comm]
    rw [hcloses.fd_of, hlive]
    exact h.fds.release x fd hcloses.held
  names := by
    rw [hcloses.name_of, hcloses.names]
    cases hname : s.name_of x with
    | none =>
      rw [Function.update_eq_self_iff.mpr hname.symm]
      exact h.names
    | some addr =>
      have hlost : {copy | copy ∈ addr :: l} = insert addr {copy | copy ∈ l} := by
        ext y
        simp
      have hlose := h.names.lose x addr hname
      rw [← hlost] at hlose
      exact hlose
  nodup := by
    cases hname : s.name_of x with
    | none => exact h.nodup
    | some addr => exact List.nodup_cons.mpr ⟨(h.names.held x addr hname).2, h.nodup⟩

/-! ## What each call leaves -/

theorem unchanged_table (s : State) (t : Table) (h : Same s.table t) : Unchanged s { s with table := t } :=
  ⟨h, rfl, rfl, rfl, rfl, rfl⟩

/-- An error and no handle, and all is as it was. -/
structure Failed (s : State) (r : Int × Option Nat) (s' : State) : Prop where
  err : r.1 < 0
  handle : r.2 = none
  unchanged : Unchanged s s'

theorem open_device_wp (device : OpenAnswer) (pversion : Except Errno Int) (t : Table) :
    Wp (open_device device pversion) t fun r t' =>
      (∃ err, r = .error err ∧ err < 0 ∧ Same t t') ∨ ∃ fd ver, r = .ok (fd, ver) ∧ Opened fd t t' := by
  apply wp_bind
  refine (openFile_wp device t).mono fun fd t1 hfd => ?_
  rcases hfd with ⟨hneg, -, hsame, herrno⟩ | ⟨hpos, -, hopened, -⟩
  · rw [if_pos hneg]
    apply wp_bind
    refine (negErrno_wp t1).mono fun r t' ⟨hr, ht⟩ => ?_
    subst hr ht
    exact wp_pure _ _ _ (.inl ⟨_, rfl, by omega, hsame⟩)
  · rw [if_neg (Int.not_lt.mpr hpos)]
    apply wp_bind
    refine (ioctl_wp pversion t1).mono fun ver t2 ⟨hsame, _, herrno⟩ => ?_
    have hopened := hopened.same hsame
    cases ver with
    | none =>
      have herrno := herrno rfl
      apply wp_bind
      refine (negErrno_wp t2).mono fun r t' ⟨hr, ht⟩ => ?_
      subst hr ht
      apply wp_bind
      refine (closeFile_wp fd.toNat _ hopened.mem).mono fun _ t3 ⟨hclosed, _⟩ => ?_
      exact wp_pure _ t3 _ (.inl ⟨_, rfl, by omega, hopened.closed hclosed⟩)
    | some ver => exact wp_pure _ t2 _ (.inr ⟨fd.toNat, ver, rfl, hopened⟩)

theorem no_handle_wp (fd : Nat) (s s₀ : State) (h : Opened fd s₀.table s.table)
    (hs : s = { s₀ with table := s.table }) : Wp (no_handle fd) s fun r s' => Failed s₀ r s' := by
  apply wp_bind
  apply sys_wp
  refine (keeps_noMemory s.table).mono fun _ t1 hsame => ?_
  have hopened := h.same hsame
  apply wp_bind
  apply sys_wp
  refine (closeFile_wp fd t1 hopened.mem).mono fun _ t2 ⟨hclosed, _⟩ => ?_
  have hunchanged := unchanged_table s₀ t2 (hopened.closed hclosed)
  rw [hs]
  exact wp_pure _ _ _ ⟨(by decide : -ENOMEM < 0), rfl, hunchanged⟩

/-- A new control. -/
structure MadeCtl (s : State) (ctl : Nat) (record : SndCtl) (s' : State) : Prop where
  table : Opened record.fd s.table s'.table
  state : s' = State.set_ctl { s with table := s'.table } ctl (some record)

theorem snd_ctl_open_wp (o : CtlAnswers) (name : List Char) (s : State) :
    Wp (snd_ctl_open o name) s fun r s' =>
      Failed s r s' ∨ ∃ ctl record, r = (0, some ctl) ∧ o.calloc = some ctl ∧ MadeCtl s ctl record s' := by
  apply wp_bind
  apply sys_wp
  refine (get_card_wp o.lookup name s.table).mono fun card t1 ⟨hsame, herr⟩ => ?_
  cases card with
  | error err => exact wp_pure _ _ _ (.inl ⟨herr err rfl, rfl, unchanged_table s t1 hsame⟩)
  | ok card =>
    apply wp_bind
    apply sys_wp
    refine (open_device_wp o.device o.pversion t1).mono fun r t2 hr => ?_
    rcases hr with ⟨err, rfl, hneg, hsame'⟩ | ⟨fd, ver, rfl, hopened⟩
    · exact wp_pure _ _ _ (.inl ⟨hneg, rfl, unchanged_table s t2 (hsame.trans hsame')⟩)
    · have hopened := hsame.opened hopened
      cases hcalloc : o.calloc with
      | none => exact (no_handle_wp fd _ s hopened rfl).mono fun r s' hfailed => .inl hfailed
      | some ctl =>
        apply wp_bind
        apply wp_modify
        exact wp_pure _ _ _ (.inr ⟨ctl, ⟨card, fd, ver⟩, rfl, rfl, hopened, rfl⟩)

structure GoneCtl (s : State) (ctl : Nat) (record : SndCtl) (s' : State) : Prop where
  table : Closed record.fd s.table s'.table
  state : s' = State.set_ctl { s with table := s'.table } ctl none

theorem snd_ctl_close_wp (ctl : Nat) (record : SndCtl) (s : State) (hctl : s.ctls ctl = some record)
    (hopen : record.fd ∈ s.table.fds) : Wp (snd_ctl_close ctl) s fun r s' => r = 0 ∧ GoneCtl s ctl record s' := by
  apply wp_get
  rw [hctl]
  apply wp_bind
  apply sys_wp
  refine (closeFile_wp record.fd s.table hopen).mono fun _ t ⟨hclosed, _⟩ => ?_
  apply wp_bind
  apply wp_modify
  exact wp_pure _ _ _ ⟨rfl, hclosed, rfl⟩

theorem snd_hctl_open_ctl_wp (calloc : Option Nat) (ctl : Nat) (s : State) :
    Wp (snd_hctl_open_ctl calloc ctl) s fun r s' =>
      Failed s r s' ∨ ∃ hctl, r = (0, some hctl) ∧ calloc = some hctl ∧ s' = s.set_hctl hctl (some ctl) := by
  cases calloc with
  | none =>
    apply wp_bind
    apply sys_wp
    refine (keeps_noMemory s.table).mono fun _ t hsame => ?_
    exact wp_pure _ _ _ (.inl ⟨(by decide : -ENOMEM < 0), rfl, unchanged_table s t hsame⟩)
  | some hctl =>
    apply wp_bind
    apply wp_modify
    exact wp_pure _ _ _ (.inr ⟨hctl, rfl, rfl, rfl⟩)

/-- A control that is made and closed again leaves no trace. -/
theorem MadeCtl.gone {s s₁ s₂ s₃ : State} {ctl : Nat} {record : SndCtl} (hfree : s.ctls ctl = none)
    (h : MadeCtl s ctl record s₁) (hmid : Unchanged s₁ s₂) (h' : GoneCtl s₂ ctl record s₃) : Unchanged s s₃ where
  table := (h.table.same hmid.table).closed h'.table
  names := by
    rw [h'.state]
    exact hmid.names.trans (by rw [h.state]; rfl)
  ctls := by
    rw [h'.state]
    unfold State.set_ctl
    dsimp only
    rw [hmid.ctls, h.state]
    unfold State.set_ctl
    dsimp only
    rw [Function.update_idem, Function.update_eq_self_iff.mpr hfree.symm]
  hctls := by
    rw [h'.state]
    exact hmid.hctls.trans (by rw [h.state]; rfl)
  hwdeps := by
    rw [h'.state]
    exact hmid.hwdeps.trans (by rw [h.state]; rfl)
  timers := by
    rw [h'.state]
    exact hmid.timers.trans (by rw [h.state]; rfl)

theorem snd_hctl_open_wp (o : CtlAnswers) (calloc : Option Nat) (name : List Char) (s : State)
    (hfree : ∀ ctl, o.calloc = some ctl → s.ctls ctl = none) :
    Wp (snd_hctl_open o calloc name) s fun r s' => Failed s r s' ∨
      ∃ ctl hctl record t, r = (0, some hctl) ∧ o.calloc = some ctl ∧ calloc = some hctl ∧ MadeCtl s ctl record t ∧
        s' = t.set_hctl hctl (some ctl) := by
  apply wp_bind
  refine (snd_ctl_open_wp o name s).mono fun r s1 hr => ?_
  rcases hr with hfailed | ⟨ctl, record, rfl, hcalloc, hmade⟩
  · dsimp only
    rw [if_pos hfailed.err]
    exact wp_pure _ _ _ (.inl ⟨hfailed.err, rfl, hfailed.unchanged⟩)
  · dsimp only
    rw [if_neg (by decide)]
    apply wp_bind
    refine (snd_hctl_open_ctl_wp calloc ctl s1).mono fun r s2 hr => ?_
    have hctl : s1.ctls ctl = some record := by
      rw [hmade.state]
      exact Function.update_self _ _ _
    rcases hr with hfailed | ⟨hctl, rfl, hcalloc', rfl⟩
    · rw [if_pos hfailed.err]
      apply wp_bind
      have hctl2 : s2.ctls ctl = some record := by rw [hfailed.unchanged.ctls, hctl]
      have hopen : record.fd ∈ s2.table.fds := hfailed.unchanged.table.fds ▸ hmade.table.mem
      refine (snd_ctl_close_wp ctl record s2 hctl2 hopen).mono fun _ s3 ⟨_, hgone⟩ => ?_
      have hunchanged := hmade.gone (hfree ctl hcalloc) hfailed.unchanged hgone
      exact wp_pure _ _ _ (.inl ⟨hfailed.err, hfailed.handle, hunchanged⟩)
    · exact wp_pure _ _ _ (.inr ⟨ctl, hctl, record, s1, rfl, hcalloc, hcalloc', hmade, rfl⟩)

/-! ## Named devices -/

/-- The copy of a name, if there was memory for it. -/
def Copied (s : State) (copy : Option Nat) (s' : State) : Prop :=
  (copy = none ∧ s'.names = s.names) ∨
    ∃ addr text, copy = some addr ∧ s.names addr = none ∧ s'.names = Function.update s.names addr (some text)

theorem strdup_wp (copy : Option Nat) (name : List Char) (s : State)
    (hfree : ∀ addr, copy = some addr → s.names addr = none) : Wp (strdup copy name) s fun r s' =>
      Same s.table s'.table ∧ Copied s r s' ∧ s' = { s with table := s'.table, names := s'.names } := by
  cases copy with
  | none =>
    apply wp_bind
    apply sys_wp
    refine (keeps_noMemory s.table).mono fun _ t hsame => ?_
    exact wp_pure _ _ _ ⟨hsame, .inl ⟨rfl, rfl⟩, rfl⟩
  | some addr =>
    apply wp_bind
    apply wp_modify
    exact wp_pure _ _ _ ⟨Same.refl _, .inr ⟨addr, name, rfl, hfree addr rfl, rfl⟩, rfl⟩

/-- A new hardware dependent device. -/
structure MadeHwdep (s : State) (hwdep : Nat) (record : SndHwdep) (s' : State) : Prop where
  table : Opened record.fd s.table s'.table
  names : Copied s record.name s'
  state : s' = State.set_hwdep { s with table := s'.table, names := s'.names } hwdep (some record)

theorem snd_hwdep_open_wp (o : HwdepAnswers) (name : List Char) (mode : BitVec 32) (s : State)
    (hfree : ∀ addr, o.strdup = some addr → s.names addr = none) :
    Wp (snd_hwdep_open o name mode) s fun r s' =>
      Failed s r s' ∨ ∃ hwdep record, r = (0, some hwdep) ∧ o.calloc = some hwdep ∧ MadeHwdep s hwdep record s' := by
  apply wp_bind
  apply sys_wp
  refine (get_card_wp o.lookup name s.table).mono fun card t1 ⟨hsame, herr⟩ => ?_
  cases card with
  | error err => exact wp_pure _ _ _ (.inl ⟨herr err rfl, rfl, unchanged_table s t1 hsame⟩)
  | ok card =>
    apply wp_bind
    apply sys_wp
    refine (open_device_wp o.device o.pversion t1).mono fun r t2 hr => ?_
    rcases hr with ⟨err, rfl, hneg, hsame'⟩ | ⟨fd, ver, rfl, hopened⟩
    · exact wp_pure _ _ _ (.inl ⟨hneg, rfl, unchanged_table s t2 (hsame.trans hsame')⟩)
    · have hopened := hsame.opened hopened
      cases hcalloc : o.calloc with
      | none => exact (no_handle_wp fd _ s hopened rfl).mono fun r s' hfailed => .inl hfailed
      | some hwdep =>
        apply wp_bind
        refine (strdup_wp o.strdup name { s with table := t2 } hfree).mono fun copy s3 ⟨hsame, hcopied, hs3⟩ => ?_
        apply wp_bind
        apply wp_modify
        refine wp_pure _ _ _ (.inr ⟨hwdep, ⟨copy, fd, mode⟩, rfl, rfl, hopened.same hsame, hcopied, ?_⟩)
        rw [hs3]
        rfl

structure MadeTimer (s : State) (timer : Nat) (record : SndTimer) (s' : State) : Prop where
  table : Opened record.fd s.table s'.table
  names : Copied s record.name s'
  state : s' = State.set_timer { s with table := s'.table, names := s'.names } timer (some record)

theorem init_timer_wp (o : TimerAnswers) (mode : BitVec 32) (t : Table) : Wp (init_timer o mode) t fun r t' =>
    Same t t' ∧ ∀ err, r = .error err → err < 0 := by
  have hfails : ∀ t₁, Same t t₁ → 0 < t₁.errno → Wp (do return Except.error (← negErrno)) t₁
      fun (r : Except Int Int) t' => Same t t' ∧ ∀ err, r = .error err → err < 0 := by
    intro t₁ hsame herrno
    apply wp_bind
    refine (negErrno_wp t₁).mono fun r t' ⟨hr, ht⟩ => ?_
    subst hr ht
    refine wp_pure _ _ _ ⟨hsame, fun err herr => ?_⟩
    have := Except.error.inj herr
    omega
  apply wp_bind
  refine (ioctl_wp o.pversion t).mono fun ver t1 ⟨hsame, _, herrno⟩ => ?_
  cases ver with
  | none => exact hfails t1 hsame (herrno rfl)
  | some ver =>
    apply wp_bind
    have htread : Wp (if mode &&& SND_TIMER_OPEN_TREAD ≠ 0#32 then call o.tread else pure 0 : Prog Table Int) t1
        fun r t' => Same t1 t' ∧ (r < 0 → 0 < t'.errno) := by
      split
      · refine (call_wp o.tread t1).mono fun r t' ⟨hsame, hr⟩ => ⟨hsame, fun hneg => ?_⟩
        obtain ⟨-, e, -, he⟩ | ⟨hzero, -⟩ := hr
        · rw [he]
          exact e.property
        · omega
      · exact wp_pure _ _ _ ⟨Same.refl t1, fun h => absurd h (by decide)⟩
    refine htread.mono fun r t2 ⟨hsame', hneg⟩ => ?_
    have hsame := hsame.trans hsame'
    split
    · rename_i hr
      exact hfails t2 hsame (hneg hr)
    · apply wp_bind
      refine (call_wp o.select t2).mono fun r t3 ⟨hsame', hr⟩ => ?_
      have hsame := hsame.trans hsame'
      obtain ⟨hneg, e, -, he⟩ | ⟨rfl, -, -⟩ := hr
      · rw [if_pos hneg]
        exact hfails t3 hsame (he ▸ e.property)
      · rw [if_neg (by decide)]
        exact wp_pure _ _ _ ⟨hsame, fun err herr => nomatch herr⟩

theorem snd_timer_open_wp (o : TimerAnswers) (name : List Char) (mode : BitVec 32) (s : State)
    (hfree : ∀ addr, o.strdup = some addr → s.names addr = none) :
    Wp (snd_timer_open o name mode) s fun r s' =>
      Failed s r s' ∨ ∃ timer record, r = (0, some timer) ∧ o.calloc = some timer ∧ MadeTimer s timer record s' := by
  unfold snd_timer_open
  split
  · exact wp_pure _ _ _ (.inl ⟨(by decide : -ENODEV < 0), rfl, unchanged_table s s.table (Same.refl _)⟩)
  · apply wp_bind
    apply sys_wp
    refine (openFile_wp o.device s.table).mono fun fd t1 hfd => ?_
    rcases hfd with ⟨hneg, -, hsame, herrno⟩ | ⟨hpos, -, hopened, -⟩
    · rw [if_pos hneg]
      apply wp_bind
      apply sys_wp
      refine (negErrno_wp t1).mono fun r t' ⟨hr, ht⟩ => ?_
      subst hr ht
      have herr : -(t'.errno : Int) < 0 := by omega
      exact wp_pure _ _ _ (.inl ⟨herr, rfl, unchanged_table s _ hsame⟩)
    · rw [if_neg (Int.not_lt.mpr hpos)]
      apply wp_bind
      apply sys_wp
      refine (init_timer_wp o mode t1).mono fun ver t2 ⟨hsame, herr⟩ => ?_
      have hopened := hopened.same hsame
      cases ver with
      | error err =>
        apply wp_bind
        apply sys_wp
        refine (closeFile_wp fd.toNat t2 hopened.mem).mono fun _ t3 ⟨hclosed, _⟩ => ?_
        exact wp_pure _ _ _ (.inl ⟨herr err rfl, rfl, unchanged_table s t3 (hopened.closed hclosed)⟩)
      | ok ver =>
        cases hcalloc : o.calloc with
        | none => exact (no_handle_wp fd.toNat _ s hopened rfl).mono fun r s' hfailed => .inl hfailed
        | some timer =>
          apply wp_bind
          refine (strdup_wp o.strdup name { s with table := t2 } hfree).mono fun copy s3 ⟨hsame, hcopied, hs3⟩ => ?_
          apply wp_bind
          apply wp_modify
          let tmode := if mode &&& SND_TIMER_OPEN_NONBLOCK ≠ 0#32 then O_NONBLOCK else 0#32
          refine wp_pure _ _ _ (.inr ⟨timer, ⟨copy, fd.toNat, ver, tmode⟩, rfl, rfl, hopened.same hsame, hcopied, ?_⟩)
          rw [hs3]
          rfl

/-- Closing a device or a timer: the record goes, its name stays. -/
theorem snd_hwdep_close_wp (hwdep : Nat) (record : SndHwdep) (s : State) (hhwdep : s.hwdeps hwdep = some record)
    (hopen : record.fd ∈ s.table.fds) : Wp (snd_hwdep_close hwdep) s fun r s' =>
      r = 0 ∧ Closed record.fd s.table s'.table ∧
        s' = State.set_hwdep { s with table := s'.table } hwdep none := by
  apply wp_get
  rw [hhwdep]
  apply wp_bind
  apply sys_wp
  refine (closeFile_wp record.fd s.table hopen).mono fun _ t ⟨hclosed, _⟩ => ?_
  apply wp_bind
  apply wp_modify
  exact wp_pure _ _ _ ⟨rfl, hclosed, rfl⟩

theorem snd_timer_close_wp (timer : Nat) (record : SndTimer) (s : State) (htimer : s.timers timer = some record)
    (hopen : record.fd ∈ s.table.fds) : Wp (snd_timer_close timer) s fun r s' =>
      r = 0 ∧ Closed record.fd s.table s'.table ∧
        s' = State.set_timer { s with table := s'.table } timer none := by
  apply wp_get
  rw [htimer]
  apply wp_bind
  apply sys_wp
  refine (closeFile_wp record.fd s.table hopen).mono fun _ t ⟨hclosed, _⟩ => ?_
  apply wp_bind
  apply wp_modify
  exact wp_pure _ _ _ ⟨rfl, hclosed, rfl⟩

/-! ## The books after each call -/

section After

variable {table : Table} {s s' : State} {l : List Nat}

theorem MadeCtl.opens {ctl : Nat} {record : SndCtl} (h : MadeCtl s ctl record s') (hfree : s.ctls ctl = none) :
    Opens s s' (.ctl ctl) record.fd none where
  free := congrArg (Option.map SndCtl.fd) hfree
  unnamed := rfl
  table := h.table
  fd_of := by
    rw [h.state, fd_of_set_ctl]
    rfl
  name_of := by
    rw [h.state]
    exact (Function.update_eq_self_iff.mpr rfl).symm
  names := .inl ⟨rfl, by rw [h.state]; rfl⟩

theorem GoneCtl.closes {ctl : Nat} {record : SndCtl} (h : GoneCtl s ctl record s') (hctl : s.ctls ctl = some record) :
    Closes s s' (.ctl ctl) record.fd where
  held := congrArg (Option.map SndCtl.fd) hctl
  table := h.table
  fd_of := by
    rw [h.state, fd_of_set_ctl]
    rfl
  name_of := by
    rw [h.state]
    exact (Function.update_eq_self_iff.mpr rfl).symm
  names := by
    rw [h.state]
    rfl

theorem MadeHwdep.opens {hwdep : Nat} {record : SndHwdep} (h : MadeHwdep s hwdep record s')
    (hfree : s.hwdeps hwdep = none) : Opens s s' (.hwdep hwdep) record.fd record.name where
  free := congrArg (Option.map SndHwdep.fd) hfree
  unnamed := congrArg (fun r => Option.bind r SndHwdep.name) hfree
  table := h.table
  fd_of := by
    rw [h.state, fd_of_set_hwdep]
    rfl
  name_of := by
    rw [h.state, name_of_set_hwdep]
    rfl
  names := h.names

theorem MadeTimer.opens {timer : Nat} {record : SndTimer} (h : MadeTimer s timer record s')
    (hfree : s.timers timer = none) : Opens s s' (.timer timer) record.fd record.name where
  free := congrArg (Option.map SndTimer.fd) hfree
  unnamed := congrArg (fun r => Option.bind r SndTimer.name) hfree
  table := h.table
  fd_of := by
    rw [h.state, fd_of_set_timer]
    rfl
  name_of := by
    rw [h.state, name_of_set_timer]
    rfl
  names := h.names

/-- The controls of the hctls, where no control goes. -/
theorem Owned.keep (h : Owned table (s, l)) (hbooks : Books table (s', l)) (hhctls : s'.hctls = s.hctls)
    (hctls : ∀ ctl, s.ctls ctl ≠ none → s'.ctls ctl ≠ none) : Owned table (s', l) where
  toBooks := hbooks
  ctl hctl ctl hhctl := hctls ctl (h.ctl hctl ctl (congrFun hhctls hctl ▸ hhctl))
  alone := by
    rw [hhctls]
    exact h.alone

theorem Owned.unchanged (h : Owned table (s, l)) (hsame : Unchanged s s') : Owned table (s', l) :=
  h.keep (h.toBooks.unchanged hsame) hsame.hctls fun ctl hctl => by rwa [hsame.ctls]

theorem Owned.made_ctl (h : Owned table (s, l)) {ctl : Nat} {record : SndCtl} (hmade : MadeCtl s ctl record s')
    (hfree : s.ctls ctl = none) : Owned table (s', l) := by
  refine h.keep (h.toBooks.opens (hmade.opens hfree)) (by rw [hmade.state]; rfl) fun c hc => ?_
  rw [hmade.state]
  unfold State.set_ctl
  rcases eq_or_ne c ctl with rfl | hne
  · simp
  · simpa [hne] using hc

/-- A control with no hctl gets one. -/
theorem Owned.made_hctl (h : Owned table (s, l)) {hctl ctl : Nat} (hfree : s.hctls hctl = none)
    (hctl' : s.ctls ctl ≠ none) (hnone : ∀ x, s.hctls x ≠ some ctl) : Owned table (s.set_hctl hctl (some ctl), l) where
  toBooks := ⟨h.fds, h.names, h.nodup⟩
  ctl x c hx := by
    rcases Cells.stored_eq_some.mp hx with ⟨-, rfl⟩ | ⟨-, hx⟩
    · exact hctl'
    · exact h.ctl x c hx
  alone x y c hx hy := by
    rcases Cells.stored_eq_some.mp hx with ⟨rfl, rfl⟩ | ⟨-, hold⟩ <;>
      rcases Cells.stored_eq_some.mp hy with ⟨rfl, hc⟩ | ⟨-, hold'⟩
    · rfl
    · exact absurd hold' (hnone y)
    · exact absurd (hc ▸ hold) (hnone x)
    · exact h.alone x y c hold hold'

theorem Owned.gone_ctl (h : Owned table (s, l)) {ctl : Nat} {record : SndCtl} (hctl : s.ctls ctl = some record)
    (hgone : GoneCtl s ctl record s') (hnone : ∀ x, s.hctls x ≠ some ctl) : Owned table (s', l) := by
  have hhctls : s'.hctls = s.hctls := by
    rw [hgone.state]
    rfl
  refine ⟨h.toBooks.closes (hgone.closes hctl), fun x c hx => ?_, by rw [hhctls]; exact h.alone⟩
  rw [hhctls] at hx
  have hne : c ≠ ctl := by
    rintro rfl
    exact hnone x hx
  rw [hgone.state]
  unfold State.set_ctl
  simpa [hne] using h.ctl x c hx

theorem Owned.fd_mem (h : Owned table (s, l)) {x : Handle} {fd : Nat} (hx : s.fd_of x = some fd) : fd ∈ s.table.fds :=
  h.fds.mem hx

end After

/-! ## Every call -/

section Calls

variable {table : Table} {s : State} {l : List Nat} (h : Owned table (s, l))

include h

theorem hctl_open_owned (o : CtlAnswers) (calloc : Option Nat) (name : List Char)
    (hallowed : Allowed (s, l) (.hctl_open o calloc name)) : Wp (exec (.hctl_open o calloc name)) s fun err s' =>
      Owned table (s', l) ∧ (err < 0 → Unchanged s s') := by
  apply wp_bind
  refine (snd_hctl_open_wp o calloc name s hallowed.1).mono fun r s' hr => ?_
  apply wp_pure
  rcases hr with hfailed | ⟨ctl, hctl, record, t, rfl, hcalloc, hcalloc', hmade, rfl⟩
  · exact ⟨h.unchanged hfailed.unchanged, fun _ => hfailed.unchanged⟩
  · have hfree := hallowed.1 ctl hcalloc
    refine ⟨?_, fun herr => absurd herr (by simp)⟩
    apply (h.made_ctl hmade hfree).made_hctl
    · rw [hmade.state]
      exact hallowed.2 hctl hcalloc'
    · rw [hmade.state]
      unfold State.set_ctl
      simp
    · -- No hctl had a control that was not there.
      intro x hx
      rw [hmade.state] at hx
      exact h.ctl x ctl hx hfree

theorem hctl_close_owned (hctl : Nat) (hallowed : Allowed (s, l) (.hctl_close hctl)) :
    Wp (exec (.hctl_close hctl)) s fun err s' => Owned table (s', l) ∧ (err < 0 → Unchanged s s') := by
  obtain ⟨ctl, hhctl⟩ := Option.ne_none_iff_exists'.mp hallowed
  obtain ⟨record, hctl'⟩ := Option.ne_none_iff_exists'.mp (h.ctl hctl ctl hhctl)
  have hopen : record.fd ∈ s.table.fds := h.fd_mem (x := .ctl ctl) (congrArg (Option.map SndCtl.fd) hctl')
  apply wp_get
  rw [hhctl]
  apply wp_bind
  refine (snd_ctl_close_wp ctl record s hctl' hopen).mono fun _ s1 ⟨_, hgone⟩ => ?_
  apply wp_bind
  apply wp_modify
  refine wp_pure _ _ _ ⟨?_, fun herr => absurd herr (by decide)⟩
  have hhctls : s1.hctls = s.hctls := by
    rw [hgone.state]
    rfl
  have hbooks := h.toBooks.closes (hgone.closes hctl')
  refine ⟨⟨hbooks.fds, hbooks.names, hbooks.nodup⟩, fun x c hx => ?_, fun x y c hx hy => ?_⟩
  · obtain ⟨hne, hx⟩ := Cells.freed_eq_some.mp hx
    rw [hhctls] at hx
    have hne : c ≠ ctl := by
      rintro rfl
      exact hne (h.alone x hctl c hx hhctl)
    rw [hgone.state]
    unfold State.set_hctl State.set_ctl
    simpa [hne] using h.ctl x c hx
  · obtain ⟨-, hx⟩ := Cells.freed_eq_some.mp hx
    obtain ⟨-, hy⟩ := Cells.freed_eq_some.mp hy
    rw [hhctls] at hx hy
    exact h.alone x y c hx hy

theorem hwdep_close_owned (hwdep : Nat) (hallowed : Allowed (s, l) (.hwdep_close hwdep)) :
    Wp (exec (.hwdep_close hwdep)) s fun err s' =>
      Owned table (s', (s.name_of (.hwdep hwdep)).toList ++ l) ∧ (err < 0 → Unchanged s s') := by
  obtain ⟨record, hrecord⟩ := Option.ne_none_iff_exists'.mp hallowed
  have hheld : s.fd_of (.hwdep hwdep) = some record.fd := congrArg (Option.map SndHwdep.fd) hrecord
  refine (snd_hwdep_close_wp hwdep record s hrecord (h.fd_mem hheld)).mono fun err s' ⟨herr, hclosed, hs'⟩ => ?_
  refine ⟨?_, fun hneg => absurd (herr ▸ hneg) (by decide)⟩
  have hcloses : Closes s s' (.hwdep hwdep) record.fd := by
    refine ⟨hheld, hclosed, ?_, ?_, ?_⟩
    · rw [hs', fd_of_set_hwdep]
      rfl
    · rw [hs', name_of_set_hwdep]
      rfl
    · rw [hs']
      rfl
  refine ⟨h.toBooks.closes hcloses, ?_, ?_⟩
  · rw [hs']
    exact h.ctl
  · rw [hs']
    exact h.alone

theorem timer_close_owned (timer : Nat) (hallowed : Allowed (s, l) (.timer_close timer)) :
    Wp (exec (.timer_close timer)) s fun err s' =>
      Owned table (s', (s.name_of (.timer timer)).toList ++ l) ∧ (err < 0 → Unchanged s s') := by
  obtain ⟨record, hrecord⟩ := Option.ne_none_iff_exists'.mp hallowed
  have hheld : s.fd_of (.timer timer) = some record.fd := congrArg (Option.map SndTimer.fd) hrecord
  refine (snd_timer_close_wp timer record s hrecord (h.fd_mem hheld)).mono fun err s' ⟨herr, hclosed, hs'⟩ => ?_
  refine ⟨?_, fun hneg => absurd (herr ▸ hneg) (by decide)⟩
  have hcloses : Closes s s' (.timer timer) record.fd := by
    refine ⟨hheld, hclosed, ?_, ?_, ?_⟩
    · rw [hs', fd_of_set_timer]
      rfl
    · rw [hs', name_of_set_timer]
      rfl
    · rw [hs']
      rfl
  refine ⟨h.toBooks.closes hcloses, ?_, ?_⟩
  · rw [hs']
    exact h.ctl
  · rw [hs']
    exact h.alone

theorem exec_owned (a : Request) (hallowed : Allowed (s, l) a) : Wp (exec a) s fun err s' =>
    Owned table (s', (lost s a).toList ++ l) ∧ (err < 0 → Unchanged s s') := by
  cases a with
  | ctl_open o name =>
    apply wp_bind
    refine (snd_ctl_open_wp o name s).mono fun r s' hr => ?_
    apply wp_pure
    rcases hr with hfailed | ⟨ctl, record, rfl, hcalloc, hmade⟩
    · exact ⟨h.unchanged hfailed.unchanged, fun _ => hfailed.unchanged⟩
    · exact ⟨h.made_ctl hmade (hallowed ctl hcalloc), fun herr => absurd herr (by simp)⟩
  | ctl_close ctl =>
    obtain ⟨record, hctl⟩ := Option.ne_none_iff_exists'.mp hallowed.1
    have hopen : record.fd ∈ s.table.fds := h.fd_mem (x := .ctl ctl) (congrArg (Option.map SndCtl.fd) hctl)
    refine (snd_ctl_close_wp ctl record s hctl hopen).mono fun err s' ⟨herr, hgone⟩ => ?_
    exact ⟨h.gone_ctl hctl hgone hallowed.2, fun hneg => absurd (herr ▸ hneg) (by decide)⟩
  | hctl_open o calloc name => exact hctl_open_owned h o calloc name hallowed
  | hctl_open_ctl calloc ctl =>
    apply wp_bind
    refine (snd_hctl_open_ctl_wp calloc ctl s).mono fun r s' hr => ?_
    apply wp_pure
    rcases hr with hfailed | ⟨hctl, rfl, hcalloc, rfl⟩
    · exact ⟨h.unchanged hfailed.unchanged, fun _ => hfailed.unchanged⟩
    · exact ⟨h.made_hctl (hallowed.2.2 hctl hcalloc) hallowed.1 hallowed.2.1, fun herr => absurd herr (by simp)⟩
  | hctl_close hctl => exact hctl_close_owned h hctl hallowed
  | hwdep_open o name mode =>
    apply wp_bind
    refine (snd_hwdep_open_wp o name mode s hallowed.2).mono fun r s' hr => ?_
    apply wp_pure
    rcases hr with hfailed | ⟨hwdep, record, rfl, hcalloc, hmade⟩
    · exact ⟨h.unchanged hfailed.unchanged, fun _ => hfailed.unchanged⟩
    · refine ⟨h.keep (h.toBooks.opens (hmade.opens (hallowed.1 hwdep hcalloc))) ?_ fun ctl hctl => ?_,
        fun herr => absurd herr (by simp)⟩
      · rw [hmade.state]
        rfl
      · rw [hmade.state]
        exact hctl
  | hwdep_close hwdep => exact hwdep_close_owned h hwdep hallowed
  | timer_open o name mode =>
    apply wp_bind
    refine (snd_timer_open_wp o name mode s hallowed.2).mono fun r s' hr => ?_
    apply wp_pure
    rcases hr with hfailed | ⟨timer, record, rfl, hcalloc, hmade⟩
    · exact ⟨h.unchanged hfailed.unchanged, fun _ => hfailed.unchanged⟩
    · refine ⟨h.keep (h.toBooks.opens (hmade.opens (hallowed.1 timer hcalloc))) ?_ fun ctl hctl => ?_,
        fun herr => absurd herr (by simp)⟩
      · rw [hmade.state]
        rfl
      · rw [hmade.state]
        exact hctl
  | timer_close timer => exact timer_close_owned h timer hallowed

end Calls

/-- Before the first call. -/
def start (table : Table) : State × List Nat :=
  (⟨table, fun _ => none, fun _ => none, fun _ => none, fun _ => none, fun _ => none⟩, [])

theorem owned_start (table : Table) : Owned table (start table) where
  fds := Ledger.balanced_start fun x => by cases x <;> rfl
  names := by
    have hnone : {copy : Nat | (none : Option (List Char)) ≠ none} = ∅ := by simp
    have hempty : {copy : Nat | copy ∈ ([] : List Nat)} = ∅ := by simp
    unfold start
    dsimp only
    rw [hnone, hempty]
    exact Ledger.balanced_start fun x => by cases x <;> rfl
  nodup := List.nodup_nil
  ctl _ _ h := by cases h
  alone _ _ _ h := by cases h

/-- In every run of opening and closing, whatever fails, all calls are defined and the descriptors are those of the
handles. Of a hardware dependent device and a timer the copy of the name is lost when they are closed, each once, and
nothing else is. A call that fails leaves all as it was. -/
theorem handles_balanced (table : Table) (as : List Request) (h : AllSteps step Allowed (start table) as) :
    AllStates step (Owned table) (start table) as ∧ AllSteps step Clean (start table) as := by
  have hstep : ∀ s a, Owned table s → Allowed s a → ∃ s', step s a = some s' ∧ Owned table s' := by
    intro s a hs hallowed
    obtain ⟨err, s', hexec, hs', -⟩ := exec_owned hs a hallowed
    refine ⟨(s', (lost s.1 a).toList ++ s.2), ?_, hs'⟩
    unfold step
    rw [hexec]
    rfl
  constructor
  · exact allStates_of_allSteps (Owned table) (Owned table) Allowed (fun _ hs => hs) hstep _ as (owned_start table) h
  · refine allSteps_of_inv (Owned table) Allowed Clean ?_ ?_ _ as (owned_start table) h
    · intro s a s' hs hallowed hs'
      obtain ⟨t, ht, hinv⟩ := hstep s a hs hallowed
      exact Option.some.inj (ht.symm.trans hs') ▸ hinv
    · intro s a hs hallowed err s' hexec herr
      exact ((exec_owned hs a hallowed).unique hexec).2 herr

/-- Everything works. -/
def timer_and_hctl : List Request :=
  [.timer_open ⟨next_free, .ok 0, none, none, some 0, some 0⟩ "hw".toList SND_TIMER_OPEN_TREAD, .timer_close 0,
   .hctl_open ⟨one_card, next_free, .ok 0, some 0⟩ (some 0) "hw".toList, .hctl_close 0]

theorem handles_balanced_timer : AllStates step (Owned stdio) (start stdio) timer_and_hctl ∧
    AllSteps step Clean (start stdio) timer_and_hctl := by
  apply handles_balanced stdio timer_and_hctl
  refine ⟨⟨fun _ _ => rfl, fun _ _ => rfl⟩, fun s hs => ?_⟩
  cases hs
  refine ⟨Option.some_ne_none _, fun s hs => ?_⟩
  cases hs
  refine ⟨⟨fun _ _ => rfl, fun _ _ => rfl⟩, fun s hs => ?_⟩
  cases hs
  exact ⟨Option.some_ne_none _, fun _ _ => trivial⟩

/-- The name of the timer is lost. -/
example : (run step (start stdio) timer_and_hctl).map Prod.snd = some [0] := rfl

end Salsa.Device.Handles
