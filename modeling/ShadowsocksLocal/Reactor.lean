import ShadowsocksLocal.Callbacks

/-! The reactor. `ev_run` repeatedly lets the listener accept or lets a started watcher fire,
with whatever outcomes the kernel and the collaborators give; callbacks run to completion,
one at a time. `Reachable` is every state some finite run leaves. -/
namespace Shadowsocks.Local

variable {σ : Type} (cipher : Cipher σ) (cfg : Config)

/-- What `ev_run` does next: the listener accepts, or a watcher fires. -/
inductive Tick where
  | accept
  | fire (w : Watcher)
  deriving DecidableEq, Repr

/-- One callback. A watcher that is not started does not fire. -/
def tick (t : Tick) (io : Io) (s : State σ) : Except Fault (State σ) :=
  match t with
  | .accept => .ok (acceptCb cipher cfg s io)
  | .fire w => if s.active w then dispatch cipher cfg w io s else .ok s

theorem tick_fire {w : Watcher} {io : Io} {s : State σ} (active : s.active w = true) :
    tick cipher cfg (.fire w) io s = dispatch cipher cfg w io s := by
  simp [tick, active]

inductive Step : State σ → State σ → Prop
  | tick {s s' : State σ} (t : Tick) (io : Io) (h : tick cipher cfg t io s = .ok s') : Step s s'

inductive Reachable : State σ → Prop
  | init : Reachable (initial cfg.fastOpen)
  | step {s s' : State σ} : Reachable s → Step cipher cfg s s' → Reachable s'

/-- A started watcher fires. -/
theorem Reachable.fire {cipher : Cipher σ} {cfg : Config} {s t : State σ} (reach : Reachable cipher cfg s)
    (w : Watcher) (io : Io) (active : s.active w = true) (h : dispatch cipher cfg w io s = .ok t) :
    Reachable cipher cfg t :=
  .step reach (.tick (.fire w) io ((tick_fire cipher cfg active).trans h))

/-- The read watcher of server `p` fires, and its callback returns a state with `P`. -/
theorem Reachable.serverRecv {cipher : Cipher σ} {cfg : Config} {s : State σ} {P : State σ → Prop}
    (reach : Reachable cipher cfg s) (p : Ptr) (io : Io) (h : ∃ t, serverRecvCb cipher cfg p io s = .ok t ∧ P t)
    (active : s.active (.serverRecv p) = true) : ∃ t, Reachable cipher cfg t ∧ P t :=
  let ⟨t, ran, holds⟩ := h
  ⟨t, reach.fire _ io active ((dispatch.eq_1 _ _ _ _ _).trans ran), holds⟩

def run : List (Tick × Io) → State σ → Except Fault (State σ)
  | [], s => .ok s
  | (t, io) :: rest, s => do run rest (← tick cipher cfg t io s)

theorem run_reachable {s s' : State σ} (l : List (Tick × Io)) (start : Reachable cipher cfg s)
    (ran : run cipher cfg l s = .ok s') : Reachable cipher cfg s' := by
  induction l generalizing s with
  | nil => cases ran; exact start
  | cons head rest ih =>
    obtain ⟨t, io⟩ := head
    simp only [run, bind, Except.bind] at ran
    split at ran
    · cases ran
    · next s₁ h => exact ih (.step start (.tick t io h)) ran

theorem exists_of_ok {α : Type} {x : Except Fault α} (P : α → Prop) [DecidablePred P]
    (ran : x.toOption.map (fun a => decide (P a)) = some true) : ∃ a, x = .ok a ∧ P a := by
  cases x with
  | error => simp [Except.toOption] at ran
  | ok a =>
    simp only [Except.toOption, Option.map_some', Option.some.injEq, decide_eq_true_eq] at ran
    exact ⟨a, rfl, ran⟩

theorem exists_of_run_from {s₀ : State σ} (start : Reachable cipher cfg s₀) (l : List (Tick × Io))
    (P : State σ → Prop) [DecidablePred P] (ran : (run cipher cfg l s₀).toOption.map (fun s => decide (P s)) = some true) :
    ∃ s, Reachable cipher cfg s ∧ P s :=
  let ⟨s, h, holds⟩ := exists_of_ok P ran
  ⟨s, run_reachable cipher cfg l start h, holds⟩

theorem exists_of_run (l : List (Tick × Io)) (P : State σ → Prop) [DecidablePred P]
    (ran : (run cipher cfg l (initial cfg.fastOpen)).toOption.map (fun s => decide (P s)) = some true) :
    ∃ s, Reachable cipher cfg s ∧ P s :=
  exists_of_run_from cipher cfg .init l P ran

def faultOf {α : Type} : Except Fault α → Option Fault
  | .error f => some f
  | .ok _ => none

theorem exists_fault_of_run (l : List (Tick × Io)) (t : Tick) (io : Io) (f : Fault)
    (ran : (run cipher cfg l (initial cfg.fastOpen)).toOption.map (fun s => faultOf (tick cipher cfg t io s)) =
      some (some f)) :
    ∃ s, Reachable cipher cfg s ∧ tick cipher cfg t io s = .error f := by
  cases h : run cipher cfg l (initial cfg.fastOpen) with
  | error => simp [h, Except.toOption] at ran
  | ok s =>
    simp only [h, Except.toOption, Option.map_some', Option.some.injEq] at ran
    refine ⟨s, run_reachable cipher cfg l .init h, ?_⟩
    cases e : tick cipher cfg t io s <;> simp_all [faultOf]

namespace Event

/-- The bytes a relay `send` wrote to `fd`. -/
def relayedOn (fd : Fd) : Event → List Byte
  | .send f .relay bytes => if f = fd then bytes else []
  | _ => []

def writtenOn (fd : Fd) : Event → List Byte
  | .send f _ bytes => if f = fd then bytes else []
  | _ => []

def receivedOn (fd : Fd) : Event → List Byte
  | .recv f bytes => if f = fd then bytes else []
  | _ => []

/-- The buffer handed to the direction that writes to `fd`, after the cipher step. -/
def handedOn (fd : Fd) : Event → List Byte
  | .hand f _ after => if f = fd then after else []
  | _ => []

def plainOn (fd : Fd) : Event → List Byte
  | .hand f before _ => if f = fd then before else []
  | _ => []

end Event

def Cipher.identity : Cipher Unit :=
  ⟨fun _ => (), fun _ bytes => some (bytes, ()), fun _ bytes => some (bytes, ()), id, id⟩

end Shadowsocks.Local
