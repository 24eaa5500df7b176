import Mathlib.Tactic.Common
import Mathlib.Tactic.IntervalCases

/-!
# The daemon's configuration variables

`iralarmd.c` keeps its configuration in static variables.  They are published
in shared memory at start-up, edited there by `iralarmctl`, and reloaded by the
SIGHUP handler.  `Settings` holds the ten variables the handler reloads, each
under the name the source gives it.

A shared memory object is named by its id (`SHM_MLOOP` and so on).  `Settings.get`
reads the variable of an object and `Settings.load` is one `GETPTR_SAFE`: it
assigns the content of the object to the variable.  Every variable has the
range of its object but one: `s_xmpp` is an `int8_t` loaded through an
`unsigned char *`.
-/

namespace Raspberries.IrAlarm

/-- The configuration variables; an unsigned variable is the number it holds. -/
structure Settings where
  sMainloop : Nat
  sAactive : Nat
  sSpeaker : Nat
  /-- The only signed one, an `int8_t`. -/
  sXmpp : Int
  sVideo : Nat
  sStatusledOn : Nat
  sStatusledOff : Nat
  irMinrecvd : Nat
  irMinalarm : Nat
  irRstalarm : Nat
  deriving DecidableEq, Repr

/-- The start values; `s_xmpp` depends on the build. -/
def Settings.initial (doXmpp : Bool) : Settings where
  sMainloop := 100000
  sAactive := 1
  sSpeaker := 0
  sXmpp := if doXmpp then 1 else -1
  sVideo := 0
  sStatusledOn := 50000
  sStatusledOff := 1000000
  irMinrecvd := 8
  irMinalarm := 2
  irRstalarm := 15

/-! ### Object ids -/

def shmMloop : Nat := 0
def shmActive : Nat := 1
def shmSpkr : Nat := 2
def shmXmpp : Nat := 3
def shmVideo : Nat := 4
def shmStledon : Nat := 5
def shmStledoff : Nat := 6
def shmMinrecvd : Nat := 7
def shmMinalrms : Nat := 8
def shmRstalrms : Nat := 9
def shmAlarm : Nat := 10

/-- The objects the SIGHUP handler reloads, in its order. -/
def reloadedIds (doXmpp : Bool) : List Nat :=
  [shmActive, shmMloop, shmSpkr] ++ (if doXmpp then [shmXmpp] else []) ++
    [shmVideo, shmStledon, shmStledoff, shmMinrecvd, shmMinalrms, shmRstalrms]

theorem lt_of_mem_reloadedIds {doXmpp : Bool} {id : Nat} (h : id ∈ reloadedIds doXmpp) :
    id < shmAlarm := by
  revert id
  cases doXmpp <;> decide

/-- An `unsigned char` assigned to an `int8_t`. -/
def toInt8 (v : Nat) : Int := (BitVec.ofNat 8 v).toInt

def Settings.get (c : Settings) (id : Nat) : Option Int :=
  match id with
  | 0 => some c.sMainloop
  | 1 => some c.sAactive
  | 2 => some c.sSpeaker
  | 3 => some c.sXmpp
  | 4 => some c.sVideo
  | 5 => some c.sStatusledOn
  | 6 => some c.sStatusledOff
  | 7 => some c.irMinrecvd
  | 8 => some c.irMinalarm
  | 9 => some c.irRstalarm
  | _ => none

/-- `GETPTR_SAFE(id, variable, tmp)` on an object whose content is `v`. -/
def Settings.load (c : Settings) (id v : Nat) : Settings :=
  match id with
  | 0 => { c with sMainloop := v }
  | 1 => { c with sAactive := v }
  | 2 => { c with sSpeaker := v }
  | 3 => { c with sXmpp := toInt8 v }
  | 4 => { c with sVideo := v }
  | 5 => { c with sStatusledOn := v }
  | 6 => { c with sStatusledOff := v }
  | 7 => { c with irMinrecvd := v }
  | 8 => { c with irMinalarm := v }
  | 9 => { c with irRstalarm := v }
  | _ => c

/-- What a variable holds after its object was loaded with content `v`. -/
def loaded (id v : Nat) : Int := if id = shmXmpp then toInt8 v else v

theorem toInt8_of_lt {v : Nat} (h : v < 128) : toInt8 v = v := by
  rw [toInt8, BitVec.toInt_ofNat', Int.bmod_eq_of_le] <;> omega

theorem Settings.get_load_self (c : Settings) {id : Nat} (h : id < shmAlarm) (v : Nat) :
    (c.load id v).get id = some (loaded id v) := by
  unfold shmAlarm at h
  interval_cases id <;> rfl

theorem Settings.get_load_of_ne (c : Settings) {id id' : Nat} (h : id' ≠ id) (v : Nat) :
    (c.load id v).get id' = c.get id' := by
  unfold Settings.load
  split <;> first
    | rfl
    | (unfold Settings.get; split <;> first | rfl | exact absurd rfl h)

/-- Settings are the values of their variables. -/
theorem Settings.ext_get {c c' : Settings} (h : ∀ id < shmAlarm, c.get id = c'.get id) :
    c = c' := by
  have hnat : ∀ {v v' : Nat}, some (v : Int) = some (v' : Int) → v = v' :=
    fun heq => Int.ofNat_inj.mp (Option.some.inj heq)
  cases c
  cases c'
  congr 1
  · exact hnat (h shmMloop (by decide))
  · exact hnat (h shmActive (by decide))
  · exact hnat (h shmSpkr (by decide))
  · exact Option.some.inj (h shmXmpp (by decide))
  · exact hnat (h shmVideo (by decide))
  · exact hnat (h shmStledon (by decide))
  · exact hnat (h shmStledoff (by decide))
  · exact hnat (h shmMinrecvd (by decide))
  · exact hnat (h shmMinalrms (by decide))
  · exact hnat (h shmRstalrms (by decide))

end Raspberries.IrAlarm
