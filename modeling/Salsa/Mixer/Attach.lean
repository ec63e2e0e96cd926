import Salsa.Errno
import Salsa.Lib.Live
import Salsa.Lib.Run

/-!
# Attaching an hctl to the mixer

The mixer takes an hctl over and closes it in the end, or at once where the attachment fails.
-/

namespace Salsa.Mixer.Attach

open Run Live

def SND_MIXER_SABSTRACT_NONE : Int := 0

/-- What is attached; none for `NULL`. -/
structure SndMixer where
  hctl : Option Nat
deriving DecidableEq

/-- The options of a registration; of the device only whether there is one. -/
structure SndMixerSelemRegopt where
  abstract : Int
  device : Bool

/-- `NULL` is dereferenced, and a closed hctl freed twice. -/
def snd_hctl_close (live : Finset Nat) : Option Nat → Option (Finset Nat)
  | none => none
  | some hctl => release live hctl

/-- `nonblock` is what `snd_hctl_nonblock` returns. -/
def snd_mixer_attach_hctl (nonblock : Int) (mixer : SndMixer) (live : Finset Nat) (hctl : Nat) :
    Option (Int × SndMixer × Finset Nat) :=
  if mixer.hctl.isSome then (snd_hctl_close live (some hctl)).map fun live => (-EBUSY, mixer, live)
  else if nonblock < 0 then (snd_hctl_close live (some hctl)).map fun live => (nonblock, mixer, live)
  else some (0, { mixer with hctl := some hctl }, live)

/-- `opened` is what `snd_hctl_open` returns, with the new hctl where it succeeds. -/
def snd_mixer_attach (opened : Int × Nat) (nonblock : Int) (mixer : SndMixer) (live : Finset Nat) :
    Option (Int × SndMixer × Finset Nat) :=
  if opened.1 < 0 then some (opened.1, mixer, live)
  else snd_mixer_attach_hctl nonblock mixer (insert opened.2 live) opened.2

def snd_mixer_detach_hctl (mixer : SndMixer) (live : Finset Nat) (hctl : Option Nat) :
    Option (Int × SndMixer × Finset Nat) :=
  if mixer.hctl ≠ hctl then some (-ENOENT, mixer, live)
  else (snd_hctl_close live mixer.hctl).map fun live => (0, { mixer with hctl := none }, live)

def snd_mixer_detach (mixer : SndMixer) (live : Finset Nat) : Option (Int × SndMixer × Finset Nat) :=
  snd_mixer_detach_hctl mixer live mixer.hctl

def snd_mixer_close (mixer : SndMixer) (live : Finset Nat) : Option (Finset Nat) :=
  if mixer.hctl.isSome then snd_hctl_close live mixer.hctl else some live

def snd_mixer_selem_register (classp : Bool) (options : Option SndMixerSelemRegopt) (opened : Int × Nat)
    (nonblock : Int) (mixer : SndMixer) (live : Finset Nat) : Option (Int × SndMixer × Finset Nat) :=
  if classp || options.any (·.abstract != SND_MIXER_SABSTRACT_NONE) then some (-EINVAL, mixer, live)
  else if options.any (·.device) then do
    let (err, mixer, live) ← snd_mixer_attach opened nonblock mixer live
    if err < 0 then return (err, mixer, live)
    else return (0, mixer, live)
  else some (0, mixer, live)

/-! ## Runs -/

inductive Act where
  /-- An hctl that the program opens itself. -/
  | hctl_open (hctl : Nat)
  | attach (opened : Int × Nat) (nonblock : Int)
  | attach_hctl (hctl : Nat) (nonblock : Int)
  | register (classp : Bool) (options : Option SndMixerSelemRegopt) (opened : Int × Nat) (nonblock : Int)
  | detach
  | detach_hctl (hctl : Option Nat)
  | close

/-- The mixer until it is freed, and the hctls that are open. -/
structure State where
  mixer : Option SndMixer
  live : Finset Nat

/-- A call on the mixer, which has to be there. -/
def call (s : State) (f : SndMixer → Finset Nat → Option (Int × SndMixer × Finset Nat)) : Option (Int × State) := do
  let (err, mixer, live) ← f (← s.mixer) s.live
  return (err, ⟨some mixer, live⟩)

def exec (s : State) : Act → Option (Int × State)
  | .hctl_open hctl => some (0, { s with live := insert hctl s.live })
  | .attach opened nonblock => call s (snd_mixer_attach opened nonblock)
  | .attach_hctl hctl nonblock => call s fun mixer live => snd_mixer_attach_hctl nonblock mixer live hctl
  | .register classp options opened nonblock => call s (snd_mixer_selem_register classp options opened nonblock)
  | .detach => call s snd_mixer_detach
  | .detach_hctl hctl => call s fun mixer live => snd_mixer_detach_hctl mixer live hctl
  | .close => do return (0, ⟨none, ← snd_mixer_close (← s.mixer) s.live⟩)

def step (s : State) (a : Act) : Option State := (exec s a).map (·.2)

def Provided (s : State) : Act → Prop
  | .hctl_open hctl => hctl ∉ s.live
  | .attach opened _ => 0 ≤ opened.1 → opened.2 ∉ s.live
  | .attach_hctl hctl _ => hctl ∈ s.live
  | .register _ _ opened _ => 0 ≤ opened.1 → opened.2 ∉ s.live
  | _ => True

/-- A closed mixer is not used any more. -/
def Allowed (s : State) (a : Act) : Prop := s.mixer.isSome ∧ Provided s a

def Attached (s : State) : Prop := ∀ mixer hctl, s.mixer = some mixer → mixer.hctl = some hctl → hctl ∈ s.live

def Act.attaches : Act → Prop
  | .attach _ _ => True
  | .attach_hctl _ _ => True
  | .register _ _ _ _ => True
  | _ => False

/-- An attachment that fails leaves what was attached attached and open. -/
def Undisturbed (s : State) (a : Act) : Prop :=
  ∀ err s', a.attaches → exec s a = some (err, s') → err < 0 → s'.mixer = s.mixer ∧ Attached s'

/-- The attached hctl is not attached again, and nothing is detached only where something is attached. -/
def Sound (s : State) : Act → Prop
  | .attach_hctl hctl _ => ∀ mixer, s.mixer = some mixer → mixer.hctl ≠ some hctl
  | .detach => ∀ mixer, s.mixer = some mixer → mixer.hctl ≠ none
  | .detach_hctl hctl => ∀ mixer, s.mixer = some mixer → mixer.hctl = hctl → hctl ≠ none
  | _ => True

/-! ## What a call does -/

/-- A call on the mixer ends, what is attached is open, and an error changes nothing on the mixer. -/
def Ends (mixer : SndMixer) (result : Option (Int × SndMixer × Finset Nat)) : Prop :=
  ∃ err mixer' live', result = some (err, mixer', live') ∧ Attached ⟨some mixer', live'⟩ ∧
    (err < 0 → mixer' = mixer)

theorem attached_iff (mixer : SndMixer) (live : Finset Nat) :
    Attached ⟨some mixer, live⟩ ↔ ∀ hctl, mixer.hctl = some hctl → hctl ∈ live := by
  constructor
  · intro h hctl hattached
    exact h mixer hctl rfl hattached
  · intro h m hctl hm hattached
    obtain rfl := Option.some.inj hm
    exact h hctl hattached

theorem ends_unchanged (mixer : SndMixer) (live : Finset Nat) (err : Int) (h : Attached ⟨some mixer, live⟩) :
    Ends mixer (some (err, mixer, live)) := ⟨err, mixer, live, rfl, h, fun _ => rfl⟩

theorem attached_erase (mixer : SndMixer) (live : Finset Nat) (hctl : Nat)
    (h : Attached ⟨some mixer, live⟩) (hne : mixer.hctl ≠ some hctl) :
    Attached ⟨some mixer, live.erase hctl⟩ := by
  rw [attached_iff] at h ⊢
  intro other hother
  apply Finset.mem_erase_of_ne_of_mem
  · rintro rfl
    exact hne hother
  · exact h other hother

theorem attach_hctl_ends (nonblock : Int) (mixer : SndMixer) (live : Finset Nat) (hctl : Nat)
    (hmem : hctl ∈ live) (h : Attached ⟨some mixer, live⟩) (hne : mixer.hctl ≠ some hctl) :
    Ends mixer (snd_mixer_attach_hctl nonblock mixer live hctl) := by
  have herase := attached_erase mixer live hctl h hne
  have hclose : snd_hctl_close live (some hctl) = some (live.erase hctl) := release_of_mem live hctl hmem
  unfold snd_mixer_attach_hctl
  rw [hclose]
  split
  · exact ends_unchanged mixer _ _ herase
  · split
    · exact ends_unchanged mixer _ _ herase
    · refine ⟨0, _, live, rfl, ?_, fun herr => absurd herr (lt_irrefl 0)⟩
      rw [attached_iff]
      intro other hother
      obtain rfl := Option.some.inj hother
      exact hmem

theorem attach_ends (opened : Int × Nat) (nonblock : Int) (mixer : SndMixer) (live : Finset Nat)
    (hnew : 0 ≤ opened.1 → opened.2 ∉ live) (h : Attached ⟨some mixer, live⟩) :
    Ends mixer (snd_mixer_attach opened nonblock mixer live) := by
  unfold snd_mixer_attach
  split
  · exact ends_unchanged mixer live _ h
  · rename_i hopened
    have hnew := hnew (not_lt.mp hopened)
    rw [attached_iff] at h
    apply attach_hctl_ends
    · exact Finset.mem_insert_self _ _
    · rw [attached_iff]
      intro hctl hattached
      exact Finset.mem_insert_of_mem (h hctl hattached)
    · intro hattached
      exact hnew (h _ hattached)

theorem register_ends (classp : Bool) (options : Option SndMixerSelemRegopt) (opened : Int × Nat)
    (nonblock : Int) (mixer : SndMixer) (live : Finset Nat) (hnew : 0 ≤ opened.1 → opened.2 ∉ live)
    (h : Attached ⟨some mixer, live⟩) :
    Ends mixer (snd_mixer_selem_register classp options opened nonblock mixer live) := by
  unfold snd_mixer_selem_register
  split
  · exact ends_unchanged mixer live _ h
  · split
    · obtain ⟨err, mixer', live', hattach, hattached, hsame⟩ := attach_ends opened nonblock mixer live hnew h
      rw [hattach]
      simp only [Option.bind_eq_bind, Option.bind_some]
      split
      · exact ⟨err, mixer', live', rfl, hattached, hsame⟩
      · exact ⟨0, mixer', live', rfl, hattached, fun herr => absurd herr (lt_irrefl 0)⟩
    · exact ends_unchanged mixer live _ h

theorem detach_hctl_ends (mixer : SndMixer) (live : Finset Nat) (hctl : Option Nat)
    (h : Attached ⟨some mixer, live⟩) (hsome : mixer.hctl = hctl → hctl ≠ none) :
    Ends mixer (snd_mixer_detach_hctl mixer live hctl) := by
  unfold snd_mixer_detach_hctl
  split
  · exact ends_unchanged mixer live _ h
  · rename_i hsame
    have hsame := not_not.mp hsame
    obtain ⟨attached, hattached⟩ := Option.ne_none_iff_exists'.mp (hsame ▸ hsome hsame)
    rw [attached_iff] at h
    have hclose : snd_hctl_close live (some attached) = some (live.erase attached) :=
      release_of_mem live attached (h attached hattached)
    rw [hattached, hclose]
    refine ⟨0, _, _, rfl, ?_, fun herr => absurd herr (lt_irrefl 0)⟩
    rw [attached_iff]
    exact fun _ hnone => absurd hnone (Option.some_ne_none _).symm

theorem close_ends (mixer : SndMixer) (live : Finset Nat) (h : Attached ⟨some mixer, live⟩) :
    ∃ live', snd_mixer_close mixer live = some live' := by
  unfold snd_mixer_close
  rw [attached_iff] at h
  cases hhctl : mixer.hctl with
  | none => exact ⟨live, rfl⟩
  | some hctl => exact ⟨_, release_of_mem live hctl (h hctl hhctl)⟩

theorem call_spec (s : State) (mixer : SndMixer) (f : SndMixer → Finset Nat → Option (Int × SndMixer × Finset Nat))
    (hmixer : s.mixer = some mixer) (h : Ends mixer (f mixer s.live)) :
    ∃ err s', call s f = some (err, s') ∧ Attached s' ∧ (err < 0 → s'.mixer = s.mixer) := by
  obtain ⟨err, mixer', live', hcall, hattached, hsame⟩ := h
  refine ⟨err, ⟨some mixer', live'⟩, ?_, hattached, ?_⟩
  · unfold call
    rw [hmixer]
    simp only [Option.bind_eq_bind, Option.bind_some, hcall]
    rfl
  · intro herr
    rw [hsame herr, hmixer]

theorem exec_spec (s : State) (a : Act) (h : Attached s) (hallowed : Allowed s a) (hsound : Sound s a) :
    ∃ err s', exec s a = some (err, s') ∧ Attached s' ∧ (err < 0 → s'.mixer = s.mixer) := by
  obtain ⟨hthere, hprovided⟩ := hallowed
  obtain ⟨mixer, hmixer⟩ := Option.isSome_iff_exists.mp hthere
  have hattached : Attached ⟨some mixer, s.live⟩ := hmixer ▸ h
  cases a with
  | hctl_open hctl =>
    refine ⟨0, _, rfl, ?_, fun herr => absurd herr (lt_irrefl 0)⟩
    intro m other hm hother
    exact Finset.mem_insert_of_mem (h m other hm hother)
  | attach opened nonblock =>
    exact call_spec s mixer _ hmixer (attach_ends opened nonblock mixer s.live hprovided hattached)
  | attach_hctl hctl nonblock =>
    exact call_spec s mixer (fun mixer live => snd_mixer_attach_hctl nonblock mixer live hctl) hmixer
      (attach_hctl_ends nonblock mixer s.live hctl hprovided hattached (hsound mixer hmixer))
  | register classp options opened nonblock =>
    exact call_spec s mixer _ hmixer
      (register_ends classp options opened nonblock mixer s.live hprovided hattached)
  | detach =>
    exact call_spec s mixer _ hmixer
      (detach_hctl_ends mixer s.live mixer.hctl hattached fun _ => hsound mixer hmixer)
  | detach_hctl hctl =>
    exact call_spec s mixer (fun mixer live => snd_mixer_detach_hctl mixer live hctl) hmixer
      (detach_hctl_ends mixer s.live hctl hattached (hsound mixer hmixer))
  | close =>
    obtain ⟨live', hclose⟩ := close_ends mixer s.live hattached
    refine ⟨0, ⟨none, live'⟩, ?_, ?_, fun herr => absurd herr (lt_irrefl 0)⟩
    · simp only [exec, Option.bind_eq_bind, hmixer, Option.bind_some, hclose]
      rfl
    · exact fun _ _ hnone => absurd hnone (Option.some_ne_none _).symm

/-- The attached hctl is closed, and stays attached. -/
theorem attach_hctl_again (nonblock : Int) (mixer : SndMixer) (live : Finset Nat) (hctl : Nat)
    (hmem : hctl ∈ live) (hsame : mixer.hctl = some hctl) :
    snd_mixer_attach_hctl nonblock mixer live hctl = some (-EBUSY, mixer, live.erase hctl) := by
  have hclose : snd_hctl_close live (some hctl) = some (live.erase hctl) := release_of_mem live hctl hmem
  unfold snd_mixer_attach_hctl
  rw [if_pos (by rw [hsame]; rfl), hclose, Option.map_some]

theorem detach_null (mixer : SndMixer) (live : Finset Nat) (hnone : mixer.hctl = none) :
    snd_mixer_detach_hctl mixer live none = none := by
  unfold snd_mixer_detach_hctl
  rw [if_neg (not_not.mpr hnone), hnone]
  rfl

/-- A step that is not sound does not end, or leaves a closed hctl attached. -/
theorem unsound_shows (s s' : State) (a : Act) (hallowed : Allowed s a) (hsound : ¬ Sound s a)
    (hstep : step s a = some s') : ¬ Attached s' := by
  obtain ⟨hthere, hprovided⟩ := hallowed
  cases a with
  | hctl_open hctl => exact absurd trivial hsound
  | attach opened nonblock => exact absurd trivial hsound
  | register classp options opened nonblock => exact absurd trivial hsound
  | close => exact absurd trivial hsound
  | attach_hctl hctl nonblock =>
    simp only [Sound, not_forall, not_not] at hsound
    obtain ⟨mixer, hmixer, hsame⟩ := hsound
    have hagain := attach_hctl_again nonblock mixer s.live hctl hprovided hsame
    simp only [step, exec, call, Option.bind_eq_bind, hmixer, Option.bind_some, hagain] at hstep
    obtain rfl := Option.some.inj hstep
    intro hattached
    exact Finset.notMem_erase hctl s.live (hattached mixer hctl rfl hsame)
  | detach =>
    simp only [Sound, not_forall, not_not] at hsound
    obtain ⟨mixer, hmixer, hnone⟩ := hsound
    have hdetach := detach_null mixer s.live hnone
    simp only [step, exec, call, Option.bind_eq_bind, hmixer, Option.bind_some, snd_mixer_detach, hnone,
      hdetach] at hstep
    cases hstep
  | detach_hctl hctl =>
    simp only [Sound, not_forall, not_not] at hsound
    obtain ⟨mixer, hmixer, hsame, rfl⟩ := hsound
    have hdetach := detach_null mixer s.live hsame
    simp only [step, exec, call, Option.bind_eq_bind, hmixer, Option.bind_some, hdetach] at hstep
    cases hstep

theorem step_of_exec (s s' : State) (a : Act) (err : Int) (h : exec s a = some (err, s')) :
    step s a = some s' := by
  unfold step
  rw [h, Option.map_some]

theorem step_spec (s : State) (a : Act) (h : Attached s) (hallowed : Allowed s a) (hsound : Sound s a) :
    ∃ s', step s a = some s' ∧ Attached s' := by
  obtain ⟨err, s', hexec, hattached, -⟩ := exec_spec s a h hallowed hsound
  exact ⟨s', step_of_exec s s' a err hexec, hattached⟩

theorem undisturbed (s : State) (a : Act) (h : Attached s) (hallowed : Allowed s a) (hsound : Sound s a) :
    Undisturbed s a := by
  intro err s' _ hexec' herr
  obtain ⟨err', s'', hexec, hattached, hsame⟩ := exec_spec s a h hallowed hsound
  rw [hexec] at hexec'
  obtain ⟨rfl, rfl⟩ := Prod.mk.inj (Option.some.inj hexec')
  exact ⟨hsame herr, hattached⟩

/-- Closed hctls stay closed and are not attached, and failures disturb nothing, in exactly the runs
whose steps are sound. -/
theorem attached_iff_sound (s : State) (as : List Act) (hs : Attached s)
    (hallowed : AllSteps step Allowed s as) :
    (AllStates step Attached s as ∧ AllSteps step Undisturbed s as) ↔ AllSteps step Sound s as := by
  have hiff : AllStates step Attached s as ↔ AllSteps step Sound s as :=
    allStates_iff_allSteps Attached Attached Allowed Sound (fun _ h => h) step_spec
      (fun s a s' _ hallowed hsound hstep => unsound_shows s s' a hallowed hsound hstep) s as hs hallowed
  constructor
  · intro h
    exact hiff.mp h.1
  · intro h
    refine ⟨hiff.mpr h, ?_⟩
    have hboth := allSteps_and _ _ s as hallowed h
    refine allSteps_of_inv Attached _ _ ?_ ?_ s as hs hboth
    · intro s a s' hs ha hstep
      obtain ⟨t, ht, hattached⟩ := step_spec s a hs ha.1 ha.2
      obtain rfl := Option.some.inj (hstep.symm.trans ht)
      exact hattached
    · exact fun s a hs ha => undisturbed s a hs ha.1 ha.2

def fresh : State := ⟨some ⟨none⟩, ∅⟩

theorem fresh_attached : Attached fresh := by
  rintro mixer hctl hmixer hhctl
  obtain rfl := Option.some.inj hmixer
  cases hhctl

/-- An hctl is attached, a second one refused, and the first one detached. -/
theorem fresh_runs : AllStates step Attached fresh [.attach (0, 1) 0, .attach (0, 2) 0, .detach, .close] ∧
    AllSteps step Undisturbed fresh [.attach (0, 1) 0, .attach (0, 2) 0, .detach, .close] := by
  apply (attached_iff_sound fresh _ fresh_attached ?_).mpr
  · refine ⟨trivial, fun s hs => ⟨trivial, fun t ht => ⟨?_, fun u hu => ⟨trivial, fun _ _ => trivial⟩⟩⟩⟩
    obtain rfl := Option.some.inj hs
    obtain rfl := Option.some.inj ht
    intro mixer hmixer
    obtain rfl := Option.some.inj hmixer
    exact Option.some_ne_none _
  · refine ⟨⟨rfl, fun _ => by decide⟩, fun s hs => ⟨?_, fun t ht => ⟨?_, fun u hu => ⟨?_, fun _ _ => trivial⟩⟩⟩⟩
    · obtain rfl := Option.some.inj hs
      exact ⟨rfl, fun _ => by decide⟩
    · obtain rfl := Option.some.inj hs
      obtain rfl := Option.some.inj ht
      exact ⟨rfl, trivial⟩
    · obtain rfl := Option.some.inj hs
      obtain rfl := Option.some.inj ht
      obtain rfl := Option.some.inj hu
      exact ⟨rfl, trivial⟩

/-- With nothing attached, `snd_mixer_detach` closes `NULL`. -/
theorem null_is_closed : ¬ ∀ (s : State) (as : List Act), Attached s → AllSteps step Allowed s as →
    AllStates step Attached s as ∧ AllSteps step Undisturbed s as := by
  intro h
  obtain ⟨⟨-, s, hstep, -⟩, -⟩ := h fresh [.detach] fresh_attached ⟨⟨rfl, trivial⟩, fun _ _ => trivial⟩
  cases hstep

end Salsa.Mixer.Attach
