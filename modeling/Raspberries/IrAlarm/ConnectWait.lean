import Raspberries.Lib.Transition

/-!
# Waiting for the XMPP connection

`irxmpp_startThread` locks `thrd_conn_mtx` and creates the XMPP thread, and the main thread
then waits in `irxmpp_thread_connect_wait` for the signal of `__irxmpp_conn_handler`.  The
wait tests no condition and the signaller does not take the mutex, so the signal of a
connection that is there before the main thread waits is missed (`connect_missed`), and the
main thread waits for the next one.

`connect_wait` proves that a run misses a signal exactly if one is sent before the main
thread begins to wait and its connection is not lost before, and that without a spurious
wake-up the wait ends only by a connection.
-/

namespace Raspberries.IrAlarm

open Transition

structure XmppConfig where
  host : Bool
  jid : Bool
  pass : Bool
  trustedJid : Bool
  deriving DecidableEq, Repr

def errNhost : Int := -1
def errNjid : Int := -2
def errNpass : Int := -3
def errNtrusted : Int := -4

/-- Where the main thread is: before the lock, before the tests and `pthread_create`,
before `pthread_cond_wait`, blocked in it, woken and about to lock again, or behind it. -/
inductive WaitPc
  | lock
  | create
  | wait
  | waiting
  | relock
  | returned
  | failed (ret : Int)
  deriving DecidableEq, Repr

/-- Where the XMPP thread is: not there, before `xmpp_connect_client`, in `xmpp_run`, in
`__irxmpp_conn_handler` for `XMPP_CONN_CONNECT` before the signal, before
`xmpp_disconnect`, or in `sleep`. -/
inductive ConnPc
  | none
  | connect
  | run
  | signal
  | disconnect
  | sleep
  deriving DecidableEq, Repr

/-- `locked` is `thrd_conn_mtx`.  The connection is established from its connect event on,
`signalled` says whether its signal has been sent, and `connects` counts the events. -/
structure ConnSys where
  cfg : XmppConfig
  main : WaitPc
  locked : Bool
  xmpp : ConnPc
  established : Bool
  signalled : Bool
  connects : Nat
  deriving DecidableEq, Repr

/-- The rest of `irxmpp_startThread` behind the lock; `ret` is what `pthread_create` would
return. -/
def irxmppStartThread (cfg : XmppConfig) (ret : Nat) : Int :=
  if !cfg.host then errNhost
  else if !cfg.jid then errNjid
  else if !cfg.pass then errNpass
  else if !cfg.trustedJid then errNtrusted
  else ret

namespace ConnSys

def initial (cfg : XmppConfig) : ConnSys where
  cfg := cfg
  main := .lock
  locked := false
  xmpp := .none
  established := false
  signalled := false
  connects := 0

def mainStep (s : ConnSys) (ret : Nat) : Option ConnSys :=
  match s.main with
  | .lock => if s.locked then none else some { s with main := .create, locked := true }
  | .create =>
    if irxmppStartThread s.cfg ret = 0 then some { s with main := .wait, xmpp := .connect }
    else some { s with main := .failed (irxmppStartThread s.cfg ret) }
  | .wait => some { s with main := .waiting, locked := false }
  | .relock => if s.locked then none else some { s with main := .returned, locked := true }
  | .waiting | .returned | .failed _ => none

def condSignal (s : ConnSys) : ConnSys :=
  if s.main = .waiting then { s with main := .relock } else s

/-- The steps.  `attempt` is a call of `xmpp_connect_client` and whether it succeeds,
`connected` and `lost` are the events of a connection in `xmpp_run`, and `runEnds` its
return; `spurious` is a wake-up of the main thread without a signal. -/
inductive ConnAct
  | main (ret : Nat)
  | spurious
  | attempt (ok : Bool)
  | connected
  | signal
  | lost
  | runEnds
  | disconnect
  | awake
  deriving DecidableEq, Repr

def step (s : ConnSys) : ConnAct → Option ConnSys
  | .main ret => mainStep s ret
  | .spurious => if s.main = .waiting then some { s with main := .relock } else none
  | .attempt ok =>
    if s.xmpp = .connect then some { s with xmpp := if ok then .run else .sleep } else none
  | .connected =>
    if s.xmpp = .run ∧ s.established = false then
      some { s with
        xmpp := .signal
        established := true
        signalled := false
        connects := s.connects + 1 }
    else none
  | .signal =>
    if s.xmpp = .signal then some { s.condSignal with xmpp := .run, signalled := true } else none
  | .lost =>
    if s.xmpp = .run ∧ s.established then some { s with established := false } else none
  | .runEnds => if s.xmpp = .run then some { s with xmpp := .disconnect } else none
  | .disconnect =>
    if s.xmpp = .disconnect then some { s with xmpp := .sleep, established := false } else none
  | .awake => if s.xmpp = .sleep then some { s with xmpp := .connect } else none

/-- The main thread waits for a signal that has already been sent for the connection that
is established. -/
def Missed (s : ConnSys) : Prop := s.main = .waiting ∧ s.established = true ∧ s.signalled = true

/-- No state along the run is a missed signal. -/
def NeverMissed (cfg : XmppConfig) (as : List ConnAct) : Prop :=
  ∀ front s, front <+: as → exec step anyStep (initial cfg) front = some s → ¬ s.Missed

/-- Each signal is sent when the main thread has begun to wait, or its connection is lost
again before the main thread begins. -/
def HeardOrLost (cfg : XmppConfig) (as : List ConnAct) : Prop :=
  ∀ before between after ret s, as = before ++ .signal :: between ++ .main ret :: after →
    exec step anyStep (initial cfg) (before ++ .signal :: between) = some s → s.main = .wait →
      .lost ∈ between ∨ .disconnect ∈ between

/-- No wake-up without a signal. -/
def Signalled (_ : ConnSys) (a : ConnAct) : Prop := a ≠ .spurious

/-- The connection stays, and nobody wakes up without a signal. -/
def Stays (_ : ConnSys) (a : ConnAct) : Prop :=
  a ≠ .spurious ∧ a ≠ .lost ∧ a ≠ .disconnect

/-! ### What a step can do -/

inductive StepTo (s : ConnSys) : ConnAct → ConnSys → Prop
  | lock (ret) (hm : s.main = .lock) :
      StepTo s (.main ret) { s with main := .create, locked := true }
  | create (ret) (hm : s.main = .create) :
      StepTo s (.main ret) { s with main := .wait, xmpp := .connect }
  | createFails (ret) (hm : s.main = .create) :
      StepTo s (.main ret) { s with main := .failed (irxmppStartThread s.cfg ret) }
  | wait (ret) (hm : s.main = .wait) :
      StepTo s (.main ret) { s with main := .waiting, locked := false }
  | relock (ret) (hm : s.main = .relock) :
      StepTo s (.main ret) { s with main := .returned, locked := true }
  | spurious (hm : s.main = .waiting) : StepTo s .spurious { s with main := .relock }
  | attempt (ok) (hx : s.xmpp = .connect) :
      StepTo s (.attempt ok) { s with xmpp := if ok then .run else .sleep }
  | connected (hx : s.xmpp = .run) (hdown : s.established = false) :
      StepTo s .connected { s with
        xmpp := .signal
        established := true
        signalled := false
        connects := s.connects + 1 }
  | signal (hx : s.xmpp = .signal) :
      StepTo s .signal { s.condSignal with xmpp := .run, signalled := true }
  | lost (hx : s.xmpp = .run) : StepTo s .lost { s with established := false }
  | runEnds (hx : s.xmpp = .run) : StepTo s .runEnds { s with xmpp := .disconnect }
  | disconnect (hx : s.xmpp = .disconnect) :
      StepTo s .disconnect { s with xmpp := .sleep, established := false }
  | awake (hx : s.xmpp = .sleep) : StepTo s .awake { s with xmpp := .connect }

section Step

variable {s t : ConnSys} {a : ConnAct}

theorem stepTo_mainStep {ret : Nat} (hst : mainStep s ret = some t) : StepTo s (.main ret) t := by
  rw [mainStep] at hst
  split at hst
  next hm =>
    split at hst
    · cases hst
    · obtain rfl := Option.some.inj hst
      exact .lock ret hm
  next hm =>
    split at hst
    · obtain rfl := Option.some.inj hst
      exact .create ret hm
    · obtain rfl := Option.some.inj hst
      exact .createFails ret hm
  next hm =>
    obtain rfl := Option.some.inj hst
    exact .wait ret hm
  next hm =>
    split at hst
    · cases hst
    · obtain rfl := Option.some.inj hst
      exact .relock ret hm
  all_goals cases hst

theorem stepTo_of_step (hst : step s a = some t) : StepTo s a t := by
  cases a with
  | main ret => exact stepTo_mainStep hst
  | spurious =>
    obtain ⟨hm, hst⟩ := Option.ite_none_right_eq_some.mp hst
    obtain rfl := Option.some.inj hst
    exact .spurious hm
  | attempt ok =>
    obtain ⟨hx, hst⟩ := Option.ite_none_right_eq_some.mp hst
    obtain rfl := Option.some.inj hst
    exact .attempt ok hx
  | connected =>
    obtain ⟨⟨hx, hdown⟩, hst⟩ := Option.ite_none_right_eq_some.mp hst
    obtain rfl := Option.some.inj hst
    exact .connected hx hdown
  | signal =>
    obtain ⟨hx, hst⟩ := Option.ite_none_right_eq_some.mp hst
    obtain rfl := Option.some.inj hst
    exact .signal hx
  | lost =>
    obtain ⟨⟨hx, -⟩, hst⟩ := Option.ite_none_right_eq_some.mp hst
    obtain rfl := Option.some.inj hst
    exact .lost hx
  | runEnds =>
    obtain ⟨hx, hst⟩ := Option.ite_none_right_eq_some.mp hst
    obtain rfl := Option.some.inj hst
    exact .runEnds hx
  | disconnect =>
    obtain ⟨hx, hst⟩ := Option.ite_none_right_eq_some.mp hst
    obtain rfl := Option.some.inj hst
    exact .disconnect hx
  | awake =>
    obtain ⟨hx, hst⟩ := Option.ite_none_right_eq_some.mp hst
    obtain rfl := Option.some.inj hst
    exact .awake hx

theorem condSignal_cases (s : ConnSys) :
    s.main = .waiting ∧ s.condSignal = { s with main := .relock } ∨
      s.main ≠ .waiting ∧ s.condSignal = s := by
  by_cases hm : s.main = .waiting
  · exact Or.inl ⟨hm, if_pos hm⟩
  · exact Or.inr ⟨hm, if_neg hm⟩

theorem condSignal_not_waiting (s : ConnSys) : s.condSignal.main ≠ .waiting := by
  rcases condSignal_cases s with ⟨-, h⟩ | ⟨hm, h⟩
  · rw [h]
    exact WaitPc.noConfusion
  · rwa [h]

/-- **What can lead to a missed signal**: only the main thread that begins to wait. -/
theorem missed_step (h : ¬ s.Missed)
    (ha : ∀ ret, a = .main ret → s.main = .wait → ¬ (s.established = true ∧ s.signalled = true))
    (hst : step s a = some t) : ¬ t.Missed := by
  intro ht
  cases stepTo_of_step hst with
  | lock | create | createFails | relock | spurious => cases ht.1
  | wait ret hm => exact ha ret rfl hm ht.2
  | connected => cases ht.2.2
  | signal => exact condSignal_not_waiting s ht.1
  | lost | disconnect => cases ht.2.1
  | attempt | runEnds | awake => exact h ht

/-- The handler that has its signal still to send. -/
def SignalPending (s : ConnSys) : Prop :=
  s.xmpp = .signal → s.established = true ∧ s.signalled = false ∧ 0 < s.connects

theorem signalPending_step (h : s.SignalPending) (hst : step s a = some t) :
    t.SignalPending := by
  intro ht
  cases stepTo_of_step hst with
  | lock | createFails | wait | relock | spurious => exact h ht
  | connected => exact ⟨rfl, rfl, Nat.succ_pos _⟩
  | attempt ok => cases ok <;> cases ht
  | lost hx => cases hx.symm.trans ht
  | create | signal | runEnds | disconnect | awake => cases ht

/-- What has brought the main thread behind the wait was a connection. -/
def WokenByConnect (s : ConnSys) : Prop :=
  s.main = .relock ∨ s.main = .returned → 0 < s.connects

theorem wokenByConnect_step (hp : s.SignalPending) (h : s.WokenByConnect) (ha : Signalled s a)
    (hst : step s a = some t) : t.WokenByConnect := by
  intro ht
  cases stepTo_of_step hst with
  | lock | create | createFails | wait =>
    rcases ht with ht | ht <;> cases ht
  | relock ret hm => exact h (Or.inl hm)
  | spurious => exact absurd rfl ha
  | connected => exact Nat.succ_pos _
  | signal hx =>
    have hconnects := (hp hx).2.2
    rcases condSignal_cases s with ⟨-, hs⟩ | ⟨-, hs⟩
    · rw [hs]
      exact hconnects
    · rw [hs]
      exact hconnects
  | attempt | lost | runEnds | disconnect | awake => exact h ht

/-- What makes a signal stand: it was sent in this step, or stood and is not lost. -/
theorem standing_step (hp : s.SignalPending) (hst : step s a = some t) :
    (t.established = true ∧ t.signalled = true) ↔
      a = .signal ∨ (s.established = true ∧ s.signalled = true) ∧ a ≠ .lost ∧ a ≠ .disconnect := by
  cases stepTo_of_step hst with
  | lock | create | createFails | wait | relock | spurious | attempt | runEnds | awake =>
    simp
  | connected _ hdown => simp [hdown]
  | signal hx =>
    have hup : s.condSignal.established = s.established := by
      rcases condSignal_cases s with ⟨-, hs⟩ | ⟨-, hs⟩ <;> rw [hs]
    simp [hup, (hp hx).1]
  | lost | disconnect => simp

theorem missed_stays (h : s.Missed) (hx : s.xmpp ≠ .signal) (ha : Stays s a)
    (hst : step s a = some t) : t.Missed ∧ t.xmpp ≠ .signal := by
  obtain ⟨hm, hup, hsent⟩ := h
  cases stepTo_of_step hst with
  | lock ret hm' | create ret hm' | createFails ret hm' | wait ret hm' | relock ret hm' =>
    cases hm.symm.trans hm'
  | spurious => exact absurd rfl ha.1
  | connected _ hdown => cases hup.symm.trans hdown
  | signal hx' => exact absurd hx' hx
  | lost => exact absurd rfl ha.2.1
  | disconnect => exact absurd rfl ha.2.2
  | attempt ok =>
    refine ⟨⟨hm, hup, hsent⟩, ?_⟩
    cases ok <;> exact ConnPc.noConfusion
  | runEnds | awake => exact ⟨⟨hm, hup, hsent⟩, ConnPc.noConfusion⟩

end Step

/-! ### Runs -/

section Runs

variable {cfg : XmppConfig} {s t : ConnSys}

theorem signalPending_reach {ok : ConnSys → ConnAct → Prop}
    (h : Reach step ok (· = initial cfg) s) : s.SignalPending :=
  h.invariant_from (by rintro ⟨⟩) fun _ _ _ hp _ hst => signalPending_step hp hst

/-- The last signal of the list, behind which its connection was not lost. -/
def Standing (as : List ConnAct) : Prop :=
  ∃ before between, as = before ++ .signal :: between ∧ .lost ∉ between ∧ .disconnect ∉ between

theorem standing_concat {as : List ConnAct} {a : ConnAct} :
    Standing (as ++ [a]) ↔ a = .signal ∨ Standing as ∧ a ≠ .lost ∧ a ≠ .disconnect := by
  refine ⟨?_, ?_⟩
  · intro h
    obtain ⟨before, between, heq, hlost, hdisconnect⟩ := h
    rcases List.eq_nil_or_concat between with rfl | ⟨between, b, rfl⟩
    · exact Or.inl (List.singleton_inj.mp (List.append_inj' heq rfl).2)
    · rw [List.concat_eq_append] at heq hlost hdisconnect
      rw [← List.cons_append, ← List.append_assoc] at heq
      obtain ⟨rfl, hab⟩ := List.append_inj' heq rfl
      obtain rfl := List.singleton_inj.mp hab
      rw [List.mem_append, List.mem_singleton, not_or] at hlost hdisconnect
      exact Or.inr ⟨⟨before, between, rfl, hlost.1, hdisconnect.1⟩, Ne.symm hlost.2,
        Ne.symm hdisconnect.2⟩
  · intro h
    rcases h with rfl | ⟨⟨before, between, rfl, hlost, hdisconnect⟩, hnlost, hndisconnect⟩
    · exact ⟨as, [], rfl, List.not_mem_nil, List.not_mem_nil⟩
    · refine ⟨before, between ++ [a], by simp, ?_, ?_⟩
      · simp [hlost, Ne.symm hnlost]
      · simp [hdisconnect, Ne.symm hndisconnect]

/-- A signal stands exactly if its connection is there. -/
theorem standing_iff {as : List ConnAct} (h : exec step anyStep (initial cfg) as = some s) :
    Standing as ↔ s.established = true ∧ s.signalled = true := by
  induction as using List.reverseRecOn generalizing s with
  | nil =>
    obtain rfl := Option.some.inj h
    refine iff_of_false ?_ fun h => (by cases h.1)
    rintro ⟨before, between, heq, -⟩
    cases before <;> cases heq
  | append_singleton as a ih =>
    obtain ⟨t, ht, hst⟩ := exec_concat.mp h
    rw [standing_concat, ih ht, standing_step (signalPending_reach (reach_of_exec as ht)) hst]

theorem HeardOrLost.of_append {as bs : List ConnAct} (h : HeardOrLost cfg (as ++ bs)) :
    HeardOrLost cfg as := by
  intro before between after ret s heq
  exact h before between (after ++ bs) ret s (by simp [heq])

/-- A run in which every signal is heard or lost does not end in a missed one. -/
theorem not_missed_of_heardOrLost {as : List ConnAct} (hheard : HeardOrLost cfg as)
    (h : exec step anyStep (initial cfg) as = some s) : ¬ s.Missed := by
  induction as using List.reverseRecOn generalizing s with
  | nil =>
    obtain rfl := Option.some.inj h
    intro hmiss
    cases hmiss.1
  | append_singleton as a ih =>
    obtain ⟨t, ht, hst⟩ := exec_concat.mp h
    refine missed_step (ih hheard.of_append ht) ?_ hst
    rintro ret rfl hm hstands
    obtain ⟨before, between, rfl, hlost, hdisconnect⟩ := (standing_iff ht).mpr hstands
    exact (hheard before between [] ret t rfl ht hm).elim hlost hdisconnect

/-- **Which runs miss a signal.** -/
theorem neverMissed_iff (cfg : XmppConfig) (as : List ConnAct) :
    NeverMissed cfg as ↔ HeardOrLost cfg as := by
  refine ⟨?_, ?_⟩
  · intro hnever before between after ret s heq h hm
    by_contra hno
    obtain ⟨hlost, hdisconnect⟩ := not_or.mp hno
    have hstands := (standing_iff h).mp ⟨before, between, rfl, hlost, hdisconnect⟩
    have hst : step s (.main ret) = some { s with main := .waiting, locked := false } := by
      rw [step, mainStep, hm]
    have hmiss : Missed { s with main := .waiting, locked := false } := ⟨rfl, hstands⟩
    have hfront : before ++ .signal :: between ++ [.main ret] <+: as := ⟨after, by simp [heq]⟩
    exact hnever _ _ hfront (exec_concat.mpr ⟨s, h, hst⟩) hmiss
  · intro hheard front s hfront h
    obtain ⟨rest, rfl⟩ := hfront
    exact not_missed_of_heardOrLost hheard.of_append h

/-- The main thread then waits for as long as the connection stays. -/
theorem missed_of_stays (h : Reach step anyStep (· = initial cfg) s) (hmiss : s.Missed)
    {u : ConnSys} (hu : Reach step Stays (· = s) u) : u.Missed := by
  have hx : s.xmpp ≠ .signal := by
    intro hx
    cases hmiss.2.2.symm.trans (signalPending_reach h hx).2.1
  have hboth := hu.invariant_from (I := fun v => v.Missed ∧ v.xmpp ≠ .signal)
    ⟨hmiss, hx⟩ fun _ _ _ hv hb hvw => missed_stays hv.1 hv.2 hb hvw
  exact hboth.1

theorem wokenByConnect_reach (h : Reach step Signalled (· = initial cfg) s) :
    s.WokenByConnect := by
  refine h.invariant_of (fun _ => signalPending_reach) ?_ ?_
  · intro s₀ hs
    rw [hs]
    intro ht
    rcases ht with ht | ht <;> cases ht
  · intro s a t hp hw ha hst
    exact wokenByConnect_step hp hw ha hst

end Runs

/-- **The wait for the connection.**  A run never has the main thread waiting for a signal
that has been sent exactly if each signal is sent when the main thread has begun to wait, or
its connection is lost before the main thread begins.  Where one is missed, the main thread
waits for as long as the connection stays.  Without spurious wake-ups the wait returns only
after a connect event. -/
theorem connect_wait (cfg : XmppConfig) :
    (∀ as, NeverMissed cfg as ↔ HeardOrLost cfg as) ∧
    (∀ s, Reach step anyStep (· = initial cfg) s → s.Missed →
      ∀ u, Reach step Stays (· = s) u → u.Missed) ∧
    (∀ s, Reach step Signalled (· = initial cfg) s → s.main = .returned → 0 < s.connects) := by
  refine ⟨neverMissed_iff cfg, ?_, ?_⟩
  · intro s h hmiss u hu
    exact missed_of_stays h hmiss hu
  · intro s h hm
    exact wokenByConnect_reach h (Or.inr hm)

def fullConfig : XmppConfig := ⟨true, true, true, true⟩

/-- The XMPP thread connects and signals before the main thread waits. -/
def connectedEarly : ConnSys :=
  (exec step anyStep (initial fullConfig)
    [.main 0, .main 0, .attempt true, .connected, .signal, .main 0]).get (by decide)

theorem connect_missed :
    ¬ ∀ cfg s, Reach step anyStep (· = initial cfg) s → ¬ s.Missed := by
  intro h
  exact h fullConfig connectedEarly (reach_get _ _ _) ⟨by decide, by decide, by decide⟩

end ConnSys

end Raspberries.IrAlarm
