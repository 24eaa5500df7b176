import Mathlib.Logic.Function.Basic
import Raspberries.Lib.Transition

/-!
# Loading and unloading `portex`

`pe_mod_init` registers an SPI device, an SPI driver and a class, and `pe_mod_exit` takes
them back.  The kernel's registries say for each name who has registered something under
it; every load attempt has a number of its own, and `Outcomes` says which of its calls
succeed.

An attempt that gets its device has no way back: if the driver is then refused the device
stays, and if the class is, nobody hears of it.  `all_or_nothing_iff` says that these two
are all that can go wrong.
-/

namespace Raspberries.PortExpander

open Transition

def driverName : String := "portex"

/-- `bus_num` and `chip_select` of `mcp23s17_info`. -/
def mcp23s17Info : Nat × Nat := (0, 0)

/-- Who has registered something: one of the load attempts, or another part of the
kernel. -/
inductive Owner
  | attempt (n : Nat)
  | other
  deriving DecidableEq, Repr

/-- Under each name at most one thing is registered. -/
abbrev Registry (α : Type) := α → Option Owner

/-- The results of the kernel calls of a load attempt.  A refusal of the driver or the class
is given by its error number, and success by 0. -/
structure Outcomes where
  master : Bool
  device : Bool
  driver : Nat
  cls : Nat
  deriving DecidableEq, Repr

/-- The module in memory: the attempt that has loaded it, and `spi_mcp23s17`. -/
structure Loaded where
  attempt : Nat
  spiMcp23s17 : Option (Nat × Nat)
  deriving DecidableEq, Repr

/-- What is registered; SPI devices by bus and chip select. -/
structure Registered where
  devices : Registry (Nat × Nat)
  drivers : Registry String
  classes : Registry String

/-- The number of attempts so far, and the module if it is loaded. -/
structure Machine where
  kernel : Registered
  attempts : Nat
  loaded : Option Loaded

/-! ### `portex_spi.c` and `portex_sysfs.c` -/

def spidevicesDelete (cs : Nat × Nat) (k : Registered) : Registered :=
  { k with devices := Function.update k.devices cs none }

/-- `spi_new_device` that succeeds. -/
def spiNewDevice (n : Nat) (k : Registered) : Registered :=
  { k with devices := Function.update k.devices mcp23s17Info (some (.attempt n)) }

def spiRegisterDriver (n : Nat) (k : Registered) : Registered :=
  { k with drivers := Function.update k.drivers driverName (some (.attempt n)) }

def classRegister (n : Nat) (k : Registered) : Registered :=
  { k with classes := Function.update k.classes driverName (some (.attempt n)) }

/-- `portex_spi_init`: its result, what is registered behind it, and `spi_mcp23s17`. -/
def portexSpiInit (o : Outcomes) (n : Nat) (k : Registered) :
    Int × Registered × Option (Nat × Nat) :=
  if o.master = false then (-22, k, none)
  else
    let k := spidevicesDelete mcp23s17Info k
    if o.device = false then (-1, k, none)
    else
      let k := spiNewDevice n k
      (-(o.driver : Int), if o.driver = 0 then spiRegisterDriver n k else k, some mcp23s17Info)

/-- `portex_sysfs_init`, which does not look at what `class_register` returns. -/
def portexSysfsInit (o : Outcomes) (n : Nat) (k : Registered) : Int × Registered :=
  (0, if o.cls = 0 then classRegister n k else k)

def portexSysfsFree (k : Registered) : Registered :=
  { k with classes := Function.update k.classes driverName none }

/-- `portex_spi_free`, without the transfers that restore the chip. -/
def portexSpiFree (spiMcp23s17 : Option (Nat × Nat)) (k : Registered) : Registered :=
  let k := { k with drivers := Function.update k.drivers driverName none }
  match spiMcp23s17 with
  | some cs => { k with devices := Function.update k.devices cs none }
  | none => k

/-! ### `portex_init.c` -/

def peModInit (o : Outcomes) (n : Nat) (k : Registered) :
    Int × Registered × Option (Nat × Nat) :=
  let (ret, k, spi) := portexSpiInit o n k
  if ret ≠ 0 then (ret, k, spi)
  else
    let (ret, k) := portexSysfsInit o n k
    (ret, k, spi)

def peModExit (spiMcp23s17 : Option (Nat × Nat)) (k : Registered) : Registered :=
  portexSpiFree spiMcp23s17 (portexSysfsFree k)

inductive ModAction
  | load (o : Outcomes)
  | unload
  deriving DecidableEq, Repr

/-- A module that is loaded is not loaded again, and one that returns an error is not kept. -/
def Machine.load (o : Outcomes) (m : Machine) : Machine :=
  let (ret, k, spi) := peModInit o m.attempts m.kernel
  { kernel := k
    attempts := m.attempts + 1
    loaded := if ret = 0 then some ⟨m.attempts, spi⟩ else none }

def Machine.step (m : Machine) : ModAction → Machine
  | .load o =>
    match m.loaded with
    | none => m.load o
    | some _ => m
  | .unload =>
    match m.loaded with
    | none => m
    | some l => { m with kernel := peModExit l.spiMcp23s17 m.kernel, loaded := none }

def bootMachine (devices : Nat × Nat → Bool) (drivers classes : String → Bool) : Machine where
  kernel :=
    { devices := fun cs => if devices cs then some .other else none
      drivers := fun name => if drivers name then some .other else none
      classes := fun name => if classes name then some .other else none }
  attempts := 0
  loaded := none

/-! ### All or nothing -/

/-- Nothing that attempt `n` has registered is there. -/
def Registered.NoneOf (k : Registered) (n : Nat) : Prop :=
  (∀ cs, k.devices cs ≠ some (.attempt n)) ∧ (∀ name, k.drivers name ≠ some (.attempt n)) ∧
    ∀ name, k.classes name ≠ some (.attempt n)

/-- Device, driver and class of attempt `n` are registered. -/
def Registered.AllOf (k : Registered) (n : Nat) : Prop :=
  k.devices mcp23s17Info = some (.attempt n) ∧ k.drivers driverName = some (.attempt n) ∧
    k.classes driverName = some (.attempt n)

/-- Between `r` and `r'` exactly the thing of `owner` under `name` is unregistered. -/
def OnlyUnregistered {α : Type} (r r' : Registry α) (name : α) (owner : Owner) : Prop :=
  r name = some owner ∧ r' name = none ∧ ∀ other, other ≠ name → r' other = r other

/-- What is to hold of a step. -/
def StepLaw (m : Machine) : ModAction → Prop
  | .load o => m.loaded = none →
    ((peModInit o m.attempts m.kernel).1 ≠ 0 → (m.load o).kernel.NoneOf m.attempts) ∧
    ((peModInit o m.attempts m.kernel).1 = 0 → (m.load o).kernel.AllOf m.attempts)
  | .unload => ∀ l, m.loaded = some l →
    OnlyUnregistered m.kernel.devices (m.step .unload).kernel.devices mcp23s17Info
      (.attempt l.attempt) ∧
    OnlyUnregistered m.kernel.drivers (m.step .unload).kernel.drivers driverName
      (.attempt l.attempt) ∧
    OnlyUnregistered m.kernel.classes (m.step .unload).kernel.classes driverName
      (.attempt l.attempt)

/-- The law holds of every step of the sequence. -/
def AllOrNothing (start : Machine) (as : List ModAction) : Prop :=
  EveryStep (fun as' a => StepLaw (as'.foldl Machine.step start) a) as

/-- The attempt that gets its device gets the driver and the class too. -/
def Outcomes.Clean (o : Outcomes) : Prop :=
  o.master = true → o.device = true → o.driver = 0 ∧ o.cls = 0

/-! ### Registries -/

section Registry

variable {α : Type} {r : Registry α} {n : Nat}

/-- What attempts have registered is from attempts before `n`. -/
def BeforeAttempt (r : Registry α) (n : Nat) : Prop := ∀ name m, r name = some (.attempt m) → m < n

theorem BeforeAttempt.mono (h : BeforeAttempt r n) {n' : Nat} (hle : n ≤ n') :
    BeforeAttempt r n' := by
  intro name m hm
  have hlt := h name m hm
  omega

theorem BeforeAttempt.ne (h : BeforeAttempt r n) (name : α) : r name ≠ some (.attempt n) := by
  intro heq
  have hlt := h name n heq
  omega

variable [DecidableEq α]

theorem BeforeAttempt.unregister (h : BeforeAttempt r n) (name : α) :
    BeforeAttempt (Function.update r name none) n := by
  intro other m hm
  by_cases heq : other = name
  · rw [heq, Function.update_self] at hm
    cases hm
  · rw [Function.update_of_ne heq] at hm
    exact h other m hm

theorem BeforeAttempt.register (h : BeforeAttempt r n) (name : α) :
    BeforeAttempt (Function.update r name (some (.attempt n))) (n + 1) := by
  intro other m hm
  by_cases heq : other = name
  · rw [heq, Function.update_self] at hm
    cases hm
    omega
  · rw [Function.update_of_ne heq] at hm
    have hlt := h other m hm
    omega

theorem onlyUnregistered_update {name : α} {owner : Owner} (h : r name = some owner) :
    OnlyUnregistered r (Function.update r name none) name owner :=
  ⟨h, Function.update_self _ _ _, fun _ hne => Function.update_of_ne hne _ _⟩

end Registry

structure Registered.Before (k : Registered) (n : Nat) : Prop where
  devices : BeforeAttempt k.devices n
  drivers : BeforeAttempt k.drivers n
  classes : BeforeAttempt k.classes n

theorem Registered.Before.noneOf {k : Registered} {n : Nat} (h : k.Before n) : k.NoneOf n :=
  ⟨h.devices.ne, h.drivers.ne, h.classes.ne⟩

/-! ### One attempt -/

section Attempt

variable {o : Outcomes} {n : Nat} {k : Registered}

theorem peModInit_noMaster (hmaster : o.master = false) : peModInit o n k = (-22, k, none) := by
  have hspi : portexSpiInit o n k = (-22, k, none) := if_pos hmaster
  rw [peModInit, hspi]
  rfl

theorem peModInit_noDevice (hmaster : o.master = true) (hdevice : o.device = false) :
    peModInit o n k = (-1, spidevicesDelete mcp23s17Info k, none) := by
  have hspi : portexSpiInit o n k = (-1, spidevicesDelete mcp23s17Info k, none) := by
    simp [portexSpiInit, hmaster, hdevice]
  rw [peModInit, hspi]
  rfl

def withDevice (n : Nat) (k : Registered) : Registered :=
  spiNewDevice n (spidevicesDelete mcp23s17Info k)

theorem withDevice_devices : (withDevice n k).devices mcp23s17Info = some (.attempt n) := by
  simp [withDevice, spiNewDevice]

theorem peModInit_noDriver (hmaster : o.master = true) (hdevice : o.device = true)
    (hdriver : o.driver ≠ 0) :
    peModInit o n k = (-(o.driver : Int), withDevice n k, some mcp23s17Info) := by
  have hspi : portexSpiInit o n k = (-(o.driver : Int), withDevice n k, some mcp23s17Info) := by
    simp [portexSpiInit, hmaster, hdevice, hdriver, withDevice]
  have hret : -(o.driver : Int) ≠ 0 := by omega
  rw [peModInit, hspi]
  exact if_pos hret

theorem peModInit_driver (hmaster : o.master = true) (hdevice : o.device = true)
    (hdriver : o.driver = 0) :
    peModInit o n k = (0, (portexSysfsInit o n (spiRegisterDriver n (withDevice n k))).2,
      some mcp23s17Info) := by
  have hspi : portexSpiInit o n k =
      (0, spiRegisterDriver n (withDevice n k), some mcp23s17Info) := by
    simp [portexSpiInit, hmaster, hdevice, hdriver, withDevice]
  rw [peModInit, hspi]
  rfl

theorem before_withDevice (h : k.Before n) : (withDevice n k).Before (n + 1) where
  devices := (h.devices.unregister mcp23s17Info).register mcp23s17Info
  drivers := h.drivers.mono (Nat.le_succ n)
  classes := h.classes.mono (Nat.le_succ n)

theorem before_peModInit (h : k.Before n) : (peModInit o n k).2.1.Before (n + 1) := by
  cases hmaster : o.master with
  | false =>
    rw [peModInit_noMaster hmaster]
    exact ⟨h.devices.mono (Nat.le_succ n), h.drivers.mono (Nat.le_succ n),
      h.classes.mono (Nat.le_succ n)⟩
  | true =>
    cases hdevice : o.device with
    | false =>
      rw [peModInit_noDevice hmaster hdevice]
      exact ⟨(h.devices.unregister mcp23s17Info).mono (Nat.le_succ n),
        h.drivers.mono (Nat.le_succ n), h.classes.mono (Nat.le_succ n)⟩
    | true =>
      by_cases hdriver : o.driver = 0
      · rw [peModInit_driver hmaster hdevice hdriver]
        have hdrivers : (spiRegisterDriver n (withDevice n k)).Before (n + 1) :=
          ⟨(before_withDevice h).devices, h.drivers.register driverName,
            (before_withDevice h).classes⟩
        show (if o.cls = 0 then _ else spiRegisterDriver n (withDevice n k)).Before (n + 1)
        split
        · exact ⟨hdrivers.devices, hdrivers.drivers, h.classes.register driverName⟩
        · exact hdrivers
      · rw [peModInit_noDriver hmaster hdevice hdriver]
        exact before_withDevice h

theorem before_peModExit {spi : Option (Nat × Nat)} (h : k.Before n) :
    (peModExit spi k).Before n := by
  cases spi with
  | none => exact ⟨h.devices, h.drivers.unregister _, h.classes.unregister _⟩
  | some cs => exact ⟨h.devices.unregister _, h.drivers.unregister _, h.classes.unregister _⟩

theorem peModInit_of_zero (hret : (peModInit o n k).1 = 0) (hclean : o.Clean) :
    (peModInit o n k).2.1.AllOf n ∧ (peModInit o n k).2.2 = some mcp23s17Info := by
  cases hmaster : o.master with
  | false =>
    rw [peModInit_noMaster hmaster] at hret
    cases hret
  | true =>
    cases hdevice : o.device with
    | false =>
      rw [peModInit_noDevice hmaster hdevice] at hret
      cases hret
    | true =>
      obtain ⟨hdriver, hcls⟩ := hclean hmaster hdevice
      rw [peModInit_driver hmaster hdevice hdriver, portexSysfsInit, if_pos hcls]
      refine ⟨⟨@withDevice_devices n k, ?_, ?_⟩, rfl⟩
      · simp [spiRegisterDriver, classRegister]
      · simp [classRegister]

/-- **One attempt.**  It is all or nothing exactly if it is clean. -/
theorem loadLaw_iff (h : k.Before n) :
    (((peModInit o n k).1 ≠ 0 → (peModInit o n k).2.1.NoneOf n) ∧
      ((peModInit o n k).1 = 0 → (peModInit o n k).2.1.AllOf n)) ↔ o.Clean := by
  refine ⟨?_, ?_⟩
  · intro hlaw hmaster hdevice
    by_cases hdriver : o.driver = 0
    · refine ⟨hdriver, ?_⟩
      by_cases hcls : o.cls = 0
      · exact hcls
      · -- nobody hears that the class is not registered
        have hinit := @peModInit_driver o n k hmaster hdevice hdriver
        rw [portexSysfsInit, if_neg hcls] at hinit
        rw [hinit] at hlaw
        exact absurd (hlaw.2 rfl).2.2 (h.classes.ne driverName)
    · -- the device stays
      have hret : -(o.driver : Int) ≠ 0 := by omega
      rw [peModInit_noDriver hmaster hdevice hdriver] at hlaw
      exact absurd withDevice_devices ((hlaw.1 hret).1 mcp23s17Info)
  · intro hclean
    refine ⟨?_, fun hret => (peModInit_of_zero hret hclean).1⟩
    intro hret
    cases hmaster : o.master with
    | false =>
      rw [peModInit_noMaster hmaster]
      exact h.noneOf
    | true =>
      cases hdevice : o.device with
      | false =>
        rw [peModInit_noDevice hmaster hdevice]
        exact ⟨(h.devices.unregister mcp23s17Info).ne, h.drivers.ne, h.classes.ne⟩
      | true =>
        rw [peModInit_driver hmaster hdevice (hclean hmaster hdevice).1] at hret
        exact absurd rfl hret

end Attempt

/-! ### Sequences -/

theorem before_boot {devices : Nat × Nat → Bool} {drivers classes : String → Bool} :
    (bootMachine devices drivers classes).kernel.Before 0 := by
  have hboot : ∀ {α : Type} (there : α → Bool),
      BeforeAttempt (fun name => if there name then some .other else none) 0 := by
    intro α there name m hm
    cases hthere : there name with
    | false => cases (if_neg (by rw [hthere]; exact Bool.false_ne_true)).symm.trans hm
    | true => cases (if_pos hthere).symm.trans hm
  exact ⟨hboot devices, hboot drivers, hboot classes⟩

/-- Whatever has happened, the numbers of the attempts are used up. -/
theorem before_step {m : Machine} (h : m.kernel.Before m.attempts) (a : ModAction) :
    (m.step a).kernel.Before (m.step a).attempts := by
  cases a with
  | load o =>
    cases hloaded : m.loaded with
    | none =>
      simp only [Machine.step, hloaded]
      exact before_peModInit h
    | some l =>
      simp only [Machine.step, hloaded]
      exact h
  | unload =>
    cases hloaded : m.loaded with
    | none =>
      simp only [Machine.step, hloaded]
      exact h
    | some l =>
      simp only [Machine.step, hloaded]
      exact before_peModExit h

/-- A module that is loaded has its three registrations. -/
def Machine.Whole (m : Machine) : Prop :=
  ∀ l, m.loaded = some l → m.kernel.AllOf l.attempt ∧ l.spiMcp23s17 = some mcp23s17Info

/-- The steps that have to be clean are the attempts that are made. -/
def Machine.CleanStep (m : Machine) (a : ModAction) : Prop :=
  ∀ o, a = .load o → m.loaded = none → o.Clean

section Step

variable {m : Machine} {a : ModAction}

theorem whole_step (hwhole : m.Whole) (hclean : m.CleanStep a) : (m.step a).Whole := by
  cases a with
  | load o =>
    cases hloaded : m.loaded with
    | none =>
      simp only [Machine.step, hloaded, Machine.load]
      intro l hl
      by_cases hret : (peModInit o m.attempts m.kernel).1 = 0
      · obtain rfl := Option.some.inj ((if_pos hret).symm.trans hl)
        exact peModInit_of_zero hret (hclean o rfl hloaded)
      · cases (if_neg hret).symm.trans hl
    | some l =>
      simp only [Machine.step, hloaded]
      exact hwhole
  | unload =>
    cases hloaded : m.loaded with
    | none =>
      simp only [Machine.step, hloaded]
      exact hwhole
    | some l =>
      simp only [Machine.step, hloaded]
      intro l' hl'
      cases hl'

/-- **One step.**  Where a loaded module is whole, the law holds of a step exactly if the
step is clean. -/
theorem stepLaw_iff (hbefore : m.kernel.Before m.attempts) (hwhole : m.Whole) :
    StepLaw m a ↔ m.CleanStep a := by
  cases a with
  | load o =>
    refine ⟨?_, ?_⟩
    · intro hlaw o' ho' hnone
      cases ho'
      exact (loadLaw_iff hbefore).mp (hlaw hnone)
    · intro hclean hnone
      exact (loadLaw_iff hbefore).mpr (hclean o rfl hnone)
  | unload =>
    refine iff_of_true ?_ (by rintro _ ⟨⟩)
    intro l hl
    obtain ⟨⟨hdevice, hdriver, hclass⟩, hspi⟩ := hwhole l hl
    simp only [Machine.step, hl, peModExit, portexSysfsFree, portexSpiFree, hspi]
    exact ⟨onlyUnregistered_update hdevice, onlyUnregistered_update hdriver,
      onlyUnregistered_update hclass⟩

end Step

/-- **When loading is all or nothing.**  Exactly if every attempt that is made and gets its
device gets the driver and the class too. -/
theorem all_or_nothing_iff (devices : Nat × Nat → Bool) (drivers classes : String → Bool)
    (as : List ModAction) :
    AllOrNothing (bootMachine devices drivers classes) as ↔
      EveryStep (fun as' a =>
        (as'.foldl Machine.step (bootMachine devices drivers classes)).CleanStep a) as := by
  apply everyStep_congr
  intro as' a hclean
  apply stepLaw_iff
  · exact hclean.invariant (I := fun m : Machine => m.kernel.Before m.attempts) before_boot
      fun _ a h _ => before_step h a
  · refine hclean.invariant (by rintro l ⟨⟩) ?_
    intro as'' a' hwhole hlast
    exact whole_step hwhole hlast

/-- The class is refused: the load succeeds without it. -/
theorem half_loaded :
    ¬ ∀ as : List ModAction,
      AllOrNothing (bootMachine (fun _ => false) (fun _ => false) fun _ => false) as := by
  intro h
  have hlaw := h [.load ⟨true, true, 0, 12⟩] [] _ List.prefix_rfl rfl
  cases (hlaw.2 rfl).2.2

end Raspberries.PortExpander
