import ShadowsocksLocal.Reactor

/-! The session-structure invariant and what keeps it. `Wf` is the shape of the sessions:
pairing, stage, registry and started watchers; `Owns` says every live endpoint owns its
blocks and descriptor alone; `Fresh` says the allocation counter is past everything in use.
`Edit` is an edit that keeps every record's shape, the heap and the registry. -/
namespace Shadowsocks.Local

variable {σ : Type}

/-- The descriptor an event is about. -/
def Event.fd : Event → Fd
  | .recv fd _ | .send fd _ _ | .hand fd _ _ | .close fd => fd

/-- An endpoint record, by its address. -/
inductive Endpoint where
  | server (p : Ptr)
  | remote (q : Ptr)
  deriving DecidableEq

def Server.blocks (p : Ptr) (sv : Server σ) : List Ptr :=
  p :: sv.recvCtx :: sv.sendCtx ::
    ((sv.buf.map Buf.ptr).toList ++ (sv.eCtx.map Prod.fst).toList ++ (sv.dCtx.map Prod.fst).toList)

def Remote.blocks (q : Ptr) (rm : Remote) : List Ptr :=
  q :: rm.recvCtx :: rm.sendCtx :: ((rm.buf.map Buf.ptr).toList ++ rm.addrInfo.toList)

/-- What the structure invariant reads of a server: descriptor, pairing, whether at stage 5,
and blocks. -/
def Server.shape (p : Ptr) (sv : Server σ) : Fd × Option Ptr × Bool × List Ptr :=
  (sv.fd, sv.remote, sv.stage == 5, sv.blocks p)

def Remote.shape (q : Ptr) (rm : Remote) : Fd × Option Ptr × List Ptr :=
  (rm.fd, rm.server, rm.blocks q)

namespace State

def owned (s : State σ) : Endpoint → List Ptr
  | .server p => ((s.servers p).map (Server.blocks p)).getD []
  | .remote q => ((s.remotes q).map (Remote.blocks q)).getD []

def fdOf (s : State σ) : Endpoint → Option Fd
  | .server p => (s.servers p).map Server.fd
  | .remote q => (s.remotes q).map Remote.fd

def isLive (s : State σ) : Endpoint → Prop
  | .server p => (s.servers p).isSome
  | .remote q => (s.remotes q).isSome

end State

/-- The endpoint that owns a watcher. -/
def Watcher.owner : Watcher → Endpoint
  | .serverRecv p | .serverSend p => .server p
  | .remoteRecv q | .remoteSend q | .connectTimer q | .idleTimer q => .remote q

/-- The session structure: (a) pairing both ways, (b) a remote exactly at stage 5,
(c) `connections` lists the live servers once each, (d) started watchers have live owners. -/
structure Wf (s : State σ) : Prop where
  pair : ∀ p sv q, s.servers p = some sv → sv.remote = some q →
    ∃ rm, s.remotes q = some rm ∧ rm.server = some p
  back : ∀ q rm, s.remotes q = some rm →
    ∃ p sv, rm.server = some p ∧ s.servers p = some sv ∧ sv.remote = some q
  stage : ∀ p sv, s.servers p = some sv → (sv.remote.isSome ↔ sv.stage = 5)
  nodup : s.connections.Nodup
  registry : ∀ p, p ∈ s.connections ↔ (s.servers p).isSome
  armed : ∀ w, s.active w = true → s.isLive w.owner

/-- Exclusive ownership: live endpoints own live, distinct blocks and open, distinct
descriptors. -/
structure Owns (s : State σ) : Prop where
  live : ∀ e b, b ∈ s.owned e → s.heap b = true
  nodup : ∀ e, (s.owned e).Nodup
  disjoint : ∀ e e', e ≠ e' → ∀ b ∈ s.owned e, b ∉ s.owned e'
  fdOpen : ∀ e fd, s.fdOf e = some fd → s.fds fd = true
  fdDistinct : ∀ e e' fd, e ≠ e' → s.fdOf e = some fd → s.fdOf e' ≠ some fd

/-- Nothing in use is at or past the allocation counter. -/
structure Fresh (s : State σ) : Prop where
  heap : ∀ b, s.heap b = true → b < s.next
  fds : ∀ fd, s.fds fd = true → fd < s.next
  trace : ∀ e ∈ s.trace, e.fd < s.next

structure Inv (s : State σ) : Prop where
  wf : Wf s
  owns : Owns s
  fresh : Fresh s

/-- The server a remote points back to is paired with it. -/
theorem Inv.paired {s : State σ} {p q : Ptr} {sv : Server σ} {rm : Remote} (inv : Inv s)
    (hq : s.remotes q = some rm) (back : rm.server = some p) (hp : s.servers p = some sv) :
    sv.remote = some q := by
  obtain ⟨p', sv', back', hp', paired⟩ := inv.wf.back q rm hq
  rw [back] at back'
  cases back'
  rw [hp] at hp'
  cases hp'
  exact paired

/-- An edit that keeps every record's shape, the heap, the descriptors, the counter and the
registry; it may emit events on descriptors in use and start watchers of live endpoints. -/
structure Edit (s s' : State σ) : Prop where
  servers : ∀ p, (s'.servers p).map (Server.shape p) = (s.servers p).map (Server.shape p)
  remotes : ∀ q, (s'.remotes q).map (Remote.shape q) = (s.remotes q).map (Remote.shape q)
  heap : s'.heap = s.heap
  fds : s'.fds = s.fds
  next : s'.next = s.next
  connections : s'.connections = s.connections
  trace : ∀ e ∈ s'.trace, e ∈ s.trace ∨ e.fd < s.next
  active : ∀ w, s'.active w = true → s.active w = true ∨ s.isLive w.owner

theorem map_eq_map_some {α β : Type} {f : α → β} {a b : Option α} {x : α}
    (same : a.map f = b.map f) (h : a = some x) : ∃ y, b = some y ∧ f x = f y := by
  subst h
  cases b with
  | none => simp at same
  | some y => exact ⟨y, rfl, by simpa using same⟩

/-- The session structure reads of a record only its pairing and whether it is at stage 5. -/
theorem Wf.relink {s t : State σ} (wf : Wf s)
    (servers : ∀ p, (t.servers p).map (fun sv => (sv.remote, sv.stage == 5)) =
      (s.servers p).map (fun sv => (sv.remote, sv.stage == 5)))
    (remotes : ∀ q, (t.remotes q).map Remote.server = (s.remotes q).map Remote.server)
    (connections : t.connections = s.connections)
    (active : ∀ w, t.active w = true → s.active w = true ∨ s.isLive w.owner) : Wf t where
  pair p sv' q hp hq := by
    obtain ⟨sv, hsv, same⟩ := map_eq_map_some (servers p) hp
    simp only [Prod.mk.injEq] at same
    obtain ⟨rm, hrm, back⟩ := wf.pair p sv q hsv (same.1 ▸ hq)
    obtain ⟨rm', hrm', same'⟩ := map_eq_map_some (remotes q).symm hrm
    exact ⟨rm', hrm', same' ▸ back⟩
  back q rm' hq := by
    obtain ⟨rm, hrm, same⟩ := map_eq_map_some (remotes q) hq
    obtain ⟨p, sv, hp, hsv, hr⟩ := wf.back q rm hrm
    obtain ⟨sv', hsv', same'⟩ := map_eq_map_some (servers p).symm hsv
    simp only [Prod.mk.injEq] at same'
    exact ⟨p, sv', same ▸ hp, hsv', same'.1 ▸ hr⟩
  stage p sv' hp := by
    obtain ⟨sv, hsv, same⟩ := map_eq_map_some (servers p) hp
    simp only [Prod.mk.injEq, beq_iff_eq] at same
    rw [same.1, wf.stage p sv hsv]
    simpa using same.2.symm
  nodup := connections ▸ wf.nodup
  registry p := by
    rw [connections, wf.registry p]
    simpa using (congrArg Option.isSome (servers p)).symm
  armed w a := by
    have live : ∀ e, t.isLive e ↔ s.isLive e := by
      intro e
      cases e with
      | server p => simpa [State.isLive] using congrArg Option.isSome (servers p)
      | remote q => simpa [State.isLive] using congrArg Option.isSome (remotes q)
    rcases active w a with a | l
    · exact (live _).2 (wf.armed w a)
    · exact (live _).2 l

/-- The process as the loop starts: nothing allocated, open or armed. -/
theorem initial_inv (fastOpen : Bool) : Inv (initial fastOpen : State σ) := by
  have owned : ∀ e, (initial fastOpen : State σ).owned e = [] := fun e => by cases e <;> rfl
  have fdOf : ∀ e, (initial fastOpen : State σ).fdOf e = none := fun e => by cases e <;> rfl
  refine ⟨⟨?_, ?_, ?_, ?_, ?_, ?_⟩, ⟨?_, ?_, ?_, ?_, ?_⟩, ⟨?_, ?_, ?_⟩⟩ <;>
    (try simp only [owned, fdOf]) <;> simp [initial]

namespace Edit

variable {s s' s'' : State σ}

@[refl] theorem refl (s : State σ) : Edit s s :=
  ⟨fun _ => rfl, fun _ => rfl, rfl, rfl, rfl, rfl, fun _ h => .inl h, fun _ h => .inl h⟩

theorem trans (h : Edit s s') (h' : Edit s' s'') : Edit s s'' where
  servers p := (h'.servers p).trans (h.servers p)
  remotes q := (h'.remotes q).trans (h.remotes q)
  heap := h'.heap.trans h.heap
  fds := h'.fds.trans h.fds
  next := h'.next.trans h.next
  connections := h'.connections.trans h.connections
  trace e m := by
    rcases h'.trace e m with m | lt
    · exact h.trace e m
    · exact .inr (h.next ▸ lt)
  active w a := by
    rcases h'.active w a with a | live
    · exact h.active w a
    · right
      cases hw : w.owner with
      | server p =>
        have := h.servers p
        rw [hw] at live
        simp only [State.isLive, Option.isSome_iff_exists] at live ⊢
        obtain ⟨sv, hsv⟩ := live
        obtain ⟨sv₀, h₀, -⟩ := map_eq_map_some this hsv
        exact ⟨sv₀, h₀⟩
      | remote q =>
        have := h.remotes q
        rw [hw] at live
        simp only [State.isLive, Option.isSome_iff_exists] at live ⊢
        obtain ⟨rm, hrm⟩ := live
        obtain ⟨rm₀, h₀, -⟩ := map_eq_map_some this hrm
        exact ⟨rm₀, h₀⟩

theorem server {p : Ptr} {sv : Server σ} (e : Edit s s') (hp : s.servers p = some sv) :
    ∃ sv', s'.servers p = some sv' ∧ sv'.shape p = sv.shape p := by
  obtain ⟨sv', h, same⟩ := map_eq_map_some (e.servers p).symm hp
  exact ⟨sv', h, same.symm⟩

theorem owned (h : Edit s s') (e : Endpoint) : s'.owned e = s.owned e := by
  cases e with
  | server p =>
    have := congrArg (Option.map fun x => x.2.2.2) (h.servers p)
    simpa [State.owned, Option.map_map, Function.comp_def, Server.shape] using
      congrArg (fun o => Option.getD o []) this
  | remote q =>
    have := congrArg (Option.map fun x => x.2.2) (h.remotes q)
    simpa [State.owned, Option.map_map, Function.comp_def, Remote.shape] using
      congrArg (fun o => Option.getD o []) this

theorem fdOf (h : Edit s s') (e : Endpoint) : s'.fdOf e = s.fdOf e := by
  cases e with
  | server p =>
    simpa [State.fdOf, Option.map_map, Function.comp_def, Server.shape] using
      congrArg (Option.map fun x => x.1) (h.servers p)
  | remote q =>
    simpa [State.fdOf, Option.map_map, Function.comp_def, Remote.shape] using
      congrArg (Option.map fun x => x.1) (h.remotes q)

theorem isLive (h : Edit s s') (e : Endpoint) : s'.isLive e ↔ s.isLive e := by
  cases e with
  | server p => simpa [State.isLive] using congrArg Option.isSome (h.servers p)
  | remote q => simpa [State.isLive] using congrArg Option.isSome (h.remotes q)

theorem wf (h : Edit s s') (inv : Wf s) : Wf s' := by
  refine inv.relink (fun p => ?_) (fun q => ?_) h.connections h.active
  · simpa [Option.map_map, Function.comp_def, Server.shape] using
      congrArg (Option.map fun x => (x.2.1, x.2.2.1)) (h.servers p)
  · simpa [Option.map_map, Function.comp_def, Remote.shape] using
      congrArg (Option.map fun x => x.2.1) (h.remotes q)

theorem owns (h : Edit s s') (inv : Owns s) : Owns s' where
  live e b m := h.heap ▸ inv.live e b (h.owned e ▸ m)
  nodup e := h.owned e ▸ inv.nodup e
  disjoint e e' ne b m := by simp only [h.owned] at *; exact inv.disjoint e e' ne b m
  fdOpen e fd hf := h.fds ▸ inv.fdOpen e fd (h.fdOf e ▸ hf)
  fdDistinct e e' fd ne hf := by simp only [h.fdOf] at *; exact inv.fdDistinct e e' fd ne hf

theorem fresh (h : Edit s s') (inv : Fresh s) : Fresh s' where
  heap b hb := h.next ▸ inv.heap b (h.heap ▸ hb)
  fds fd hf := h.next ▸ inv.fds fd (h.fds ▸ hf)
  trace e m := by
    rw [h.next]
    rcases h.trace e m with m | lt
    · exact inv.trace e m
    · exact lt

theorem inv (h : Edit s s') (inv : Inv s) : Inv s' :=
  ⟨h.wf inv.wf, h.owns inv.owns, h.fresh inv.fresh⟩

theorem setServer {p : Ptr} {sv sv' : Server σ} (hp : s.servers p = some sv)
    (same : sv'.shape p = sv.shape p) : Edit s (s.setServer p sv') where
  servers x := by by_cases e : x = p <;> simp [Function.update_apply, e, hp, same]
  remotes _ := rfl
  heap := rfl
  fds := rfl
  next := rfl
  connections := rfl
  trace _ m := .inl m
  active _ a := .inl a

theorem setRemote {q : Ptr} {rm rm' : Remote} (hq : s.remotes q = some rm)
    (same : rm'.shape q = rm.shape q) : Edit s (s.setRemote q rm') where
  servers _ := rfl
  remotes x := by by_cases e : x = q <;> simp [Function.update_apply, e, hq, same]
  heap := rfl
  fds := rfl
  next := rfl
  connections := rfl
  trace _ m := .inl m
  active _ a := .inl a

theorem emit {e : Event} (lt : e.fd < s.next) : Edit s (s.emit e) where
  servers _ := rfl
  remotes _ := rfl
  heap := rfl
  fds := rfl
  next := rfl
  connections := rfl
  trace x m := by
    simp only [State.emit_trace, List.mem_append, List.mem_singleton] at m
    rcases m with m | rfl
    · exact .inl m
    · exact .inr lt
  active _ a := .inl a

theorem start {w : Watcher} (live : s.isLive w.owner) : Edit s (s.start w) where
  servers _ := rfl
  remotes _ := rfl
  heap := rfl
  fds := rfl
  next := rfl
  connections := rfl
  trace _ m := .inl m
  active x a := by
    by_cases e : x = w
    · exact .inr (e ▸ live)
    · exact .inl (by simpa [Function.update_apply, e] using a)

theorem stop (w : Watcher) : Edit s (s.stop w) where
  servers _ := rfl
  remotes _ := rfl
  heap := rfl
  fds := rfl
  next := rfl
  connections := rfl
  trace _ m := .inl m
  active x a := by
    by_cases e : x = w
    · simp [e] at a
    · exact .inl (by simpa [Function.update_apply, e] using a)

theorem fastOpen (b : Bool) : Edit s { s with fastOpen := b } :=
  ⟨fun _ => rfl, fun _ => rfl, rfl, rfl, rfl, rfl, fun _ m => .inl m, fun _ a => .inl a⟩

theorem timerAgain {w : Watcher} (period : Int) (live : s.isLive w.owner) :
    Edit s (s.timerAgain w period) := by
  unfold State.timerAgain
  split
  · exact start live
  · exact stop w

theorem sendBytes {fd : Fd} (lt : fd < s.next) (site : Site) (bytes : List Byte) (res : Send) :
    Edit s (s.sendBytes fd site bytes res).2 := by
  unfold State.sendBytes
  split
  · exact emit lt
  · exact refl s

end Edit

end Shadowsocks.Local
