import ShadowsocksLocal.Descriptors

/-! Sessions. A callback runs for one session: the server of the watcher that fired, or the
server its remote points back to. `Confined p` is what a callback of session `p` may do: the
records of every other session stay as they were, a remote record that changes belonged to
session `p` and still does or was detached, the server `p` is paired only within its session,
and a remote is opened only where `opens` allows it. With the invariant on both sides of the
step, each callback leaves the other sessions alone and ends its own whole or not at all. -/
namespace Shadowsocks.Local

variable {σ : Type}

/-- The remote at `q`, if there is one, belongs to session `p`. -/
def Within (p : Ptr) (s : State σ) (q : Ptr) : Prop := ∀ rm, s.remotes q = some rm → rm.server = some p

/-- The server of the session a watcher belongs to. -/
def State.sessionOf (s : State σ) (w : Watcher) : Option Ptr :=
  match w.owner with
  | .server p => some p
  | .remote q => (s.remotes q).bind Remote.server

/-- A step of a callback of session `p`, from `s`. -/
structure Confined (p : Ptr) (opens : Prop) (s t : State σ) : Prop where
  servers : ∀ x, x ≠ p → t.servers x = s.servers x
  remotes : ∀ y, t.remotes y ≠ s.remotes y →
    Within p s y ∧ ∀ rm, t.remotes y = some rm → rm.server = some p ∨ rm.server = none
  partner : ∀ sv q, t.servers p = some sv → sv.remote = some q → Within p s q
  opened : ∀ y, s.remotes y = none → t.remotes y ≠ none → opens

/-- What a callback does to the sessions, for the session `p` of the watcher that fired: every
other server and every remote of another session keeps its record, and a remote of session `p`
is gone exactly when its server is. -/
structure SessionStep (p : Ptr) (s t : State σ) : Prop where
  servers : ∀ x, x ≠ p → t.servers x = s.servers x
  remotes : ∀ y rm, s.remotes y = some rm → rm.server ≠ some p → t.remotes y = some rm
  whole : ∀ y rm, s.remotes y = some rm → rm.server = some p → (t.servers p = none ↔ t.remotes y = none)

theorem Wf.within {s : State σ} {p q : Ptr} {sv : Server σ} (wf : Wf s) (hp : s.servers p = some sv)
    (paired : sv.remote = some q) : Within p s q := fun rm hq => by
  obtain ⟨rm', hq', back⟩ := wf.pair p sv q hp paired
  obtain rfl := Option.some.inj (hq'.symm.trans hq)
  exact back

namespace Confined

variable {p q y : Ptr} {O : Prop} {s t u : State σ} {sv : Server σ} {rm : Remote}

theorem refl (wf : Wf s) : Confined p O s s where
  servers _ _ := rfl
  remotes _ ne := absurd rfl ne
  partner _ _ hp paired := wf.within hp paired
  opened _ vacant live := absurd vacant live

/-- A step that rewrites no record. -/
theorem step (h : Confined p O s u) (servers : t.servers = u.servers) (remotes : t.remotes = u.remotes) :
    Confined p O s t where
  servers x ne := by rw [servers, h.servers x ne]
  remotes y := by rw [remotes]; exact h.remotes y
  partner sv q := by rw [servers]; exact h.partner sv q
  opened y := by rw [remotes]; exact h.opened y

theorem start (h : Confined p O s u) (w : Watcher) : Confined p O s (u.start w) := h.step rfl rfl

theorem stop (h : Confined p O s u) (w : Watcher) : Confined p O s (u.stop w) := h.step rfl rfl

theorem emit (h : Confined p O s u) (e : Event) : Confined p O s (u.emit e) := h.step rfl rfl

theorem malloc (h : Confined p O s u) : Confined p O s u.malloc.2 := h.step rfl rfl

theorem openFd (h : Confined p O s u) : Confined p O s u.openFd.2 := h.step rfl rfl

theorem close (h : Confined p O s u) (fd : Fd) : Confined p O s (u.close fd) := h.step rfl rfl

theorem timerAgain (h : Confined p O s u) (w : Watcher) (period : Int) : Confined p O s (u.timerAgain w period) :=
  h.step (State.timerAgain_servers _ _ _) (State.timerAgain_remotes _ _ _)

theorem sendBytes (h : Confined p O s u) (fd : Fd) (site : Site) (bytes : List Byte) (res : Send) :
    Confined p O s (u.sendBytes fd site bytes res).2 := by
  cases res with
  | accept n => exact h.emit _
  | error e => exact h

theorem send {fd : Fd} {site : Site} {c : Buf} {idx len : Int} {res : Send} {x : Except Errno Nat}
    (h : Confined p O s u) (sent : u.send fd site c idx len res = .ok (x, t)) : Confined p O s t := by
  rw [show t = _ from congrArg Prod.snd (State.send_eq_ok sent).2.2.2]
  exact h.sendBytes _ _ _ _

theorem free {c : Ptr} (h : Confined p O s u) (freed : u.free c = .ok t) : Confined p O s t := by
  rw [(State.free_eq_ok.1 freed).2]
  exact h.step rfl rfl

/-- A record of session `p` the step reads: its back-pointer is `p` or detached, and it is there
in `s` unless the step may open one. -/
theorem known (h : Confined p O s u) (within : Within p s y) (hy : u.remotes y = some rm) :
    (rm.server = some p ∨ rm.server = none) ∧ (s.remotes y = none → O) := by
  refine ⟨?_, fun vacant => h.opened y vacant (by simp [hy])⟩
  by_cases e : u.remotes y = s.remotes y
  · exact .inl (within rm (e ▸ hy))
  · exact (h.remotes y e).2 rm hy

theorem owner (h : Confined p O s u) (within : Within p s y) (hy : u.remotes y = some rm) {x : Ptr}
    (e : rm.server = some x) : x = p := by
  rcases (h.known within hy).1 with back | back <;> rw [e] at back
  · exact Option.some.inj back
  · cases back

theorem setServer {sv : Server σ} (h : Confined p O s u) (within : ∀ q, sv.remote = some q → Within p s q) :
    Confined p O s (u.setServer p sv) where
  servers x ne := by simp [ne, h.servers x ne]
  remotes := h.remotes
  partner sv' q hp paired := by
    simp only [State.setServer_servers, Function.update_same, Option.some.injEq] at hp
    subst hp
    exact within q paired
  opened := h.opened

/-- Rewriting the server `p` with its remote kept. -/
theorem setServer_of {sv' : Server σ} (h : Confined p O s u) (hp : u.servers p = some sv)
    (same : sv'.remote = sv.remote) : Confined p O s (u.setServer p sv') :=
  h.setServer fun q paired => h.partner sv q hp (same ▸ paired)

theorem setRemote {rm : Remote} (h : Confined p O s u) (within : Within p s y)
    (inside : rm.server = some p ∨ rm.server = none) (opens : s.remotes y = none → O) :
    Confined p O s (u.setRemote y rm) where
  servers := h.servers
  remotes y' ne := by
    by_cases e : y' = y
    · subst e
      refine ⟨within, fun rm' h' => ?_⟩
      simp only [State.setRemote_remotes, Function.update_same, Option.some.injEq] at h'
      exact h' ▸ inside
    · simp only [State.setRemote_remotes, Function.update_noteq e] at ne ⊢
      exact h.remotes y' ne
  partner := h.partner
  opened y' vacant live := by
    by_cases e : y' = y
    · subst e; exact opens vacant
    · simp only [State.setRemote_remotes, Function.update_noteq e] at live
      exact h.opened y' vacant live

theorem dropServer (h : Confined p O s u) : Confined p O s { u with servers := Function.update u.servers p none } where
  servers x ne := by simp [Function.update_noteq ne, h.servers x ne]
  remotes := h.remotes
  partner sv q hp := by simp at hp
  opened := h.opened

theorem dropRemote (h : Confined p O s u) (within : Within p s y) :
    Confined p O s { u with remotes := Function.update u.remotes y none } where
  servers := h.servers
  remotes y' ne := by
    by_cases e : y' = y
    · subst e; exact ⟨within, fun rm h' => by simp at h'⟩
    · simp only [Function.update_noteq e] at ne ⊢
      exact h.remotes y' ne
  partner := h.partner
  opened y' vacant live := by
    by_cases e : y' = y
    · subst e; simp at live
    · simp only [Function.update_noteq e] at live
      exact h.opened y' vacant live

theorem detachServer (h : Confined p O s u) {o : Option Ptr} (ho : ∀ x, o = some x → x = p) :
    Yields (Confined p O s) (u.detachServer o) := by
  cases o with
  | none => exact .ok h
  | some x =>
    obtain rfl := ho x rfl
    exact .bind fun sv _ => .ok (h.setServer fun _ e => Option.noConfusion e)

theorem detachRemote (h : Confined p O s u) {o : Option Ptr} (ho : ∀ q, o = some q → Within p s q) :
    Yields (Confined p O s) (u.detachRemote o) := by
  cases o with
  | none => exact .ok h
  | some q =>
    exact .bind fun rm hq => .ok (h.setRemote (ho q rfl) (.inr rfl) (h.known (ho q rfl) (State.remote?_eq_ok.1 hq)).2)

theorem freeOpt (h : Confined p O s u) (o : Option Ptr) : Yields (Confined p O s) (u.freeOpt o) := by
  cases o with
  | none => exact .ok h
  | some c => exact fun _ freed => h.free freed

theorem freeRemote (h : Confined p O s u) (within : Within p s q) : Yields (Confined p O s) (u.freeRemote q) := by
  unfold State.freeRemote
  refine .bind fun rm hq => .bind fun u₁ h₁ => .bind fun u₂ h₂ => .bind fun u₃ h₃ => .bind fun u₄ h₄ =>
    .bind fun u₅ h₅ => .bind fun u₆ h₆ => .ok ?_
  have c₁ : Confined p O s u₁ := h.detachServer (fun _ => h.owner within (State.remote?_eq_ok.1 hq)) u₁ h₁
  exact ((((c₁.freeOpt _ u₂ h₂).freeOpt _ u₃ h₃).free h₄).free h₅ |>.free h₆).dropRemote within

theorem freeServer (h : Confined p O s u) : Yields (Confined p O s) (u.freeServer p) := by
  unfold State.freeServer
  refine .bind fun sv hp => .bind fun u₁ h₁ => .bind fun u₂ h₂ => .bind fun u₃ h₃ => .bind fun u₄ h₄ =>
    .bind fun u₅ h₅ => .bind fun u₆ h₆ => .bind fun u₇ h₇ => .ok ?_
  have c₁ : Confined p O s u₁ :=
    (h.step (t := { u with connections := u.connections.erase p }) rfl rfl).detachRemote
      (fun q => h.partner sv q (State.server?_eq_ok.1 hp)) u₁ h₁
  exact ((((c₁.freeOpt _ u₂ h₂).freeOpt _ u₃ h₃).freeOpt _ u₄ h₄).free h₅ |>.free h₆ |>.free h₇).dropServer

theorem closeAndFreeRemote (h : Confined p O s u) {o : Option Ptr} (ho : ∀ q, o = some q → Within p s q) :
    Yields (Confined p O s) (u.closeAndFreeRemote o) := by
  cases o with
  | none => exact .ok h
  | some q => exact .bind fun rm _ => ((((h.stop _).stop _).stop _).stop _ |>.close _).freeRemote (ho q rfl)

theorem closeAndFreeServer (h : Confined p O s u) {o : Option Ptr} (ho : ∀ x, o = some x → x = p) :
    Yields (Confined p O s) (u.closeAndFreeServer o) := by
  cases o with
  | none => exact .ok h
  | some x =>
    obtain rfl := ho x rfl
    exact .bind fun sv _ => (((h.stop _).stop _).close _).freeServer

theorem teardown (h : Confined p O s u) {r o : Option Ptr} (hr : ∀ q, r = some q → Within p s q)
    (ho : ∀ x, o = some x → x = p) : Yields (Confined p O s) (u.teardown r o) :=
  .bind fun _ h₁ => (h.closeAndFreeRemote hr _ h₁).closeAndFreeServer ho

/-- The pair of calls on session `p` and its remote `q`. -/
theorem teardown_pair (h : Confined p O s u) (within : Within p s q) :
    Yields (Confined p O s) (u.teardown (some q) (some p)) :=
  h.teardown (by rintro _ ⟨⟩; exact within) (by rintro _ ⟨⟩; rfl)

/-- The pair of calls on the server `p` and whatever it is paired with. -/
theorem teardown_server (h : Confined p O s u) (hp : u.servers p = some sv) :
    Yields (Confined p O s) (u.teardown sv.remote (some p)) :=
  h.teardown (fun q => h.partner sv q hp) (by rintro _ ⟨⟩; rfl)

end Confined

namespace Confined

section Relay

variable (cipher : Cipher σ) (cfg : Config) {io : Io} {p q : Ptr} {O : Prop} {s u : State σ}

theorem sendUp {r : Int} (h : Confined p O s u) (within : Within p s q) :
    Yields (Confined p O s) (Local.sendUp p q io r u) := by
  unfold Local.sendUp
  refine .bind fun rm hq => ?_
  obtain ⟨inside, opens⟩ := h.known within (State.remote?_eq_ok.1 hq)
  have h₁ : Confined p O s (u.setRemote q { rm with bufIdx := 0, bufLen := r }) := h.setRemote within (by exact inside) opens
  dsimp only
  split
  · split
    · exact .ok (((h₁.stop _).start _).start _)
    refine .bind fun c _ => .bind fun sr sent => ?_
    have h₂ := h₁.send sent
    split
    · exact .ok (((h₂.setRemote within (by exact inside) opens).stop _).start _)
    · exact (by split_ifs <;> exact h₂.step rfl rfl : Confined p O s _).teardown_pair within
    · exact .ok (((h₂.setRemote within (by split_ifs <;> exact inside) opens).stop _).start _)
  · refine .bind fun c _ => .bind fun sr sent => ?_
    have h₂ := h.send sent
    split
    · exact .ok (((h₂.setRemote within (by exact inside) opens).stop _).start _)
    · exact h₂.teardown_pair within
    · split
      · exact .ok (((h₂.setRemote within (by exact inside) opens).stop _).start _)
      · exact .ok h₂

theorem relayUp {remote : Option Ptr} {r : Int} (h : Confined p O s u) (hr : ∀ q, remote = some q → Within p s q) :
    Yields (Confined p O s) (Local.relayUp cipher p io remote r u) := by
  unfold Local.relayUp
  cases remote with
  | none => exact h.closeAndFreeServer (by rintro _ ⟨⟩; rfl)
  | some q =>
    have within := hr q rfl
    refine .bind fun sv hp => .bind fun rm hq => ?_
    replace hp := State.server?_eq_ok.1 hp
    obtain ⟨inside, opens⟩ := h.known within (State.remote?_eq_ok.1 hq)
    split
    · refine .bind fun c _ => ?_
      dsimp only
      split
      · exact .bind fun _ freed => ((h.free freed).setRemote within (by exact inside) opens).teardown_pair within
      · exact (((h.setServer_of hp (by rfl)).setRemote within (by exact inside) opens).emit _).sendUp within
    · exact (h.emit _).sendUp within

theorem deliver {r : Int} (h : Confined p O s u) (within : Within p s q) :
    Yields (Confined p O s) (Local.deliver p q io r u) := by
  unfold Local.deliver
  refine .bind fun sv hp => ?_
  replace hp := State.server?_eq_ok.1 hp
  refine .bind fun c _ => .bind fun sr sent => ?_
  have h₂ := h.send sent
  split
  · exact .ok (((h₂.setServer (by exact fun q' => h.partner sv q' hp)).stop _).start _)
  · exact h₂.teardown_pair within
  · split
    · exact .ok (((h₂.setServer (by exact fun q' => h.partner sv q' hp)).stop _).start _)
    · exact .ok h₂

theorem serverSendCb (h : Confined p O s u) : Yields (Confined p O s) (Local.serverSendCb p io u) := by
  unfold Local.serverSendCb
  refine .bind fun sv hp => ?_
  replace hp := State.server?_eq_ok.1 hp
  split
  · exact h.teardown_server hp
  refine .bind fun c _ => .bind fun sr sent => ?_
  have h₂ := h.send sent
  split
  · split
    · exact h₂.teardown (fun q => h.partner sv q hp) (by rintro _ ⟨⟩; rfl)
    · exact .ok h₂
  · split
    · exact .ok (h₂.setServer (by exact fun q => h.partner sv q hp))
    · exact .bind fun _ _ => .bind fun _ _ => .ok (((h₂.setServer (by exact fun q => h.partner sv q hp)).stop _).start _)

theorem remoteRecvCb (h : Confined p O s u) (within : Within p s q) :
    Yields (Confined p O s) (Local.remoteRecvCb cipher cfg q io u) := by
  unfold Local.remoteRecvCb
  refine .bind fun rm hq => ?_
  replace hq := State.remote?_eq_ok.1 hq
  have h₁ := h.timerAgain (.idleTimer q) (idleRepeat cfg)
  refine .bind fun x hx => ?_
  obtain rfl : x = p := h.owner within hq (deref_eq_ok.1 hx)
  refine .bind fun sv hp => ?_
  replace hp : u.servers x = some sv := by simpa using State.server?_eq_ok.1 hp
  have keep := fun q' => h.partner sv q' hp
  split
  · exact .ok h₁
  · exact h₁.teardown_pair within
  dsimp only
  split
  · exact h₁.teardown_pair within
  refine .bind fun c _ => .bind fun c' _ => ?_
  split
  · split
    · exact .bind fun _ freed => (((h₁.setServer (by exact keep)).emit _).free freed |>.setServer
        (by exact keep)).teardown_pair within
    · exact ((((h₁.setServer (by exact keep)).emit _).setServer (by exact keep)).emit _).deliver within
  · exact (((h₁.setServer (by exact keep)).emit _).emit _).deliver within

theorem flushUp {server : Option Ptr} (h : Confined p O s u) (within : Within p s q)
    (hs : ∀ x, server = some x → x = p) : Yields (Confined p O s) (Local.flushUp q server io u) := by
  unfold Local.flushUp
  refine .bind fun rm hq => ?_
  obtain ⟨inside, opens⟩ := h.known within (State.remote?_eq_ok.1 hq)
  split
  · exact h.teardown (by rintro _ ⟨⟩; exact within) hs
  refine .bind fun c _ => .bind fun sr sent => ?_
  have h₂ := h.send sent
  split
  · split
    · exact h₂.teardown (by rintro _ ⟨⟩; exact within) hs
    · exact .ok h₂
  · split
    · exact .ok (h₂.setRemote within (by exact inside) opens)
    · exact .bind fun _ _ => .bind fun _ _ => .ok (((h₂.setRemote within (by exact inside) opens).stop _).start _)

theorem remoteSendCb (h : Confined p O s u) (within : Within p s q) :
    Yields (Confined p O s) (Local.remoteSendCb q io u) := by
  unfold Local.remoteSendCb
  refine .bind fun rm hq => ?_
  replace hq := State.remote?_eq_ok.1 hq
  obtain ⟨inside, opens⟩ := h.known within hq
  have hs : ∀ x, rm.server = some x → x = p := fun _ => h.owner within hq
  have h₁ : Confined p O s ((((u.setRemote q { rm with connected := true }).stop (.connectTimer q)).start
      (.idleTimer q)).start (.remoteRecv q)) := (((h.setRemote within (by exact inside) opens).stop _).start _).start _
  split
  · split
    · split
      · exact .bind fun _ _ => .bind fun _ _ => .ok ((h₁.stop _).start _)
      · exact h₁.flushUp within hs
    · exact h.teardown (by rintro _ ⟨⟩; exact within) hs
  · exact h.flushUp within hs

theorem remoteTimeoutCb (h : Confined p O s u) (within : Within p s q) :
    Yields (Confined p O s) (Local.remoteTimeoutCb q u) :=
  .bind fun _ hq => h.teardown (by rintro _ ⟨⟩; exact within) fun _ => h.owner within (State.remote?_eq_ok.1 hq)

end Relay

section Handshake

variable (cipher : Cipher σ) (cfg : Config) {io : Io} {p : Ptr} {O : Prop} {s u : State σ}

theorem greet (h : Confined p O s u) : Yields (Confined p O s) (Local.greet p io u) :=
  .bind fun sv hp => .ok ((h.sendBytes _ _ _ _).setServer fun q => h.partner sv q (State.server?_eq_ok.1 hp))

theorem reply {udp : Bool} {addr : List Byte} {l : Locals} (h : Confined p O s u)
    (hl : ∀ q, l.remote = some q → Within p s q) :
    Yields (fun pass => Confined p O s pass.state ∧ ∀ l' t, pass = .again l' t → l' = l) (Local.reply p io udp addr l u) := by
  unfold Local.reply
  refine .bind fun sv hp => .bind fun c _ => .bind fun c' _ => .bind fun ⟨res, s₁⟩ sent => ?_
  have h₁ := (h.setServer (by exact fun q => h.partner sv q (State.server?_eq_ok.1 hp))).send sent
  simp only [pure_bind]
  split
  · exact .bind fun _ td => .ok ⟨h₁.teardown hl (by rintro _ ⟨⟩; rfl) _ td, by rintro _ _ ⟨⟩⟩
  split
  · exact .bind fun _ td => .ok ⟨h₁.teardown hl (by rintro _ ⟨⟩; rfl) _ td, by rintro _ _ ⟨⟩⟩
  · exact .ok ⟨h₁, by rintro _ _ ⟨⟩; rfl⟩

/-- The CONNECT branch opens the one remote it pairs with `p`, at an address no record of `s`
uses. -/
theorem connectRequest {l : Locals} {c : Buf} (h : Confined p O s u) (hl : ∀ q, l.remote = some q → Within p s q)
    (opens : O) (vacant : ∀ y, u.next ≤ y → s.remotes y = none) :
    Yields (fun r => Confined p O s r.2 ∧ ∀ l', r.1 = some l' → ∀ q, l'.remote = some q → Within p s q)
      (Local.connectRequest cfg p io l c u) := by
  unfold Local.connectRequest
  refine .bind fun atyp _ => .bind fun parsed _ => ?_
  rcases parsed with _ | ⟨header, host, service⟩
  · exact .bind fun _ td => .ok ⟨h.malloc.teardown hl (by rintro _ ⟨⟩; rfl) _ td, by rintro _ ⟨⟩⟩
  refine .bind fun sv hp => ?_
  have h₂ : Confined p O s (u.malloc.2.setServer p { sv with stage := 5 }) :=
    h.malloc.setServer_of (State.server?_eq_ok.1 hp) (by rfl)
  refine .bind fun ⟨remote, s₃⟩ opened => .bind fun _ _ => ?_
  rcases connectToRemote_cases cfg opened with ⟨rfl, rfl | rfl⟩ | ⟨rfl, rfl⟩
  · exact .bind fun _ td => .ok ⟨h₂.closeAndFreeServer (by rintro _ ⟨⟩; rfl) _ td, by rintro _ ⟨⟩⟩
  · exact .bind fun _ td => .ok ⟨Confined.closeAndFreeServer (by exact h₂.step rfl rfl) (by rintro _ ⟨⟩; rfl) _ td,
      by rintro _ ⟨⟩⟩
  · have new : Within p s (u.next + 1 + 2) := fun rm e => by simp [vacant (u.next + 1 + 2) (by omega)] at e
    have h₃ : Confined p O s (u.malloc.2.setServer p { sv with stage := 5 }).malloc.2.openFd.2.malloc.2.malloc.2.malloc.2.malloc.2 :=
      h₂.malloc.openFd.malloc.malloc.malloc.malloc
    refine .bind fun rm _ => .bind fun _ _ => .bind fun _ _ => .bind fun sv' _ => .ok ⟨?_, ?_⟩
    · exact ((h₃.setRemote new (by exact .inr rfl) fun _ => opens).setServer fun q e => by cases e; exact new).setRemote
        new (by exact .inl rfl) fun _ => opens
    · rintro _ ⟨⟩ q e
      cases e
      exact new

theorem request {l : Locals} (h : Confined p O s u) (hl : ∀ q, l.remote = some q → Within p s q) (opens : O)
    (vacant : ∀ y, u.next ≤ y → s.remotes y = none) :
    Yields (fun pass => Confined p O s pass.state ∧ ∀ l' t, pass = .again l' t → ∀ q, l'.remote = some q → Within p s q)
      (Local.request cfg p io l u) := by
  unfold Local.request
  refine .bind fun sv _ => .bind fun _ _ => .bind fun _ _ => ?_
  split
  · exact (h.reply hl).mono fun _ ⟨c, same⟩ => ⟨c, fun l' t e => same l' t e ▸ hl⟩
  split
  · exact .bind fun _ td => .ok ⟨(h.sendBytes _ _ _ _).teardown hl (by rintro _ ⟨⟩; rfl) _ td, by rintro _ _ ⟨⟩⟩
  · refine .bind fun ⟨res, s₂⟩ conn => ?_
    obtain ⟨c₂, hl₂⟩ := h.connectRequest cfg hl opens vacant _ conn
    cases res with
    | none => exact .ok ⟨c₂, by rintro _ _ ⟨⟩⟩
    | some l' => exact (c₂.reply (hl₂ l' rfl)).mono fun _ ⟨c, same⟩ => ⟨c, fun l'' t e => same l'' t e ▸ hl₂ l' rfl⟩

/-- The two passes: only a server below stage 5 reaches the CONNECT branch. -/
theorem twoPasses {l : Locals} (h : Confined p O s u) (hl : ∀ q, l.remote = some q → Within p s q)
    (vacant : ∀ y, u.next ≤ y → s.remotes y = none) (early : ∀ sv, u.servers p = some sv → sv.stage ≠ 5 → O) :
    Yields (Confined p O s) (Local.twoPasses cipher cfg p io l u) := by
  unfold Local.twoPasses
  refine .bind fun sv hp => ?_
  replace hp := State.server?_eq_ok.1 hp
  split
  · exact h.relayUp cipher hl
  next below =>
  split
  · exact h.greet
  · refine .bind fun pass done => ?_
    obtain ⟨c, again⟩ := h.request cfg hl (early sv hp below) vacant pass done
    cases pass with
    | done t => exact .ok c
    | again l' t => exact c.relayUp cipher (again l' t rfl)

theorem setBuffer {o : Option Ptr} {c : Buf} (h : Confined p O s u) (ho : ∀ q, o = some q → Within p s q) :
    Yields (fun t => Confined p O s t ∧ t.next = u.next) (Local.setBuffer u p o c) := by
  cases o with
  | none => exact .bind fun sv hp => .ok ⟨h.setServer_of (State.server?_eq_ok.1 hp) (by rfl), rfl⟩
  | some q =>
    refine .bind fun rm hq => .ok ⟨?_, rfl⟩
    obtain ⟨inside, opens⟩ := h.known (ho q rfl) (State.remote?_eq_ok.1 hq)
    exact h.setRemote (ho q rfl) inside opens

end Handshake

end Confined

section Callbacks

variable (cipher : Cipher σ) (cfg : Config) {io : Io} {p : Ptr} {s t : State σ}

/-- `server_recv_cb` opens a remote only for a server below stage 5. -/
theorem serverRecvCb_confined (inv : Inv s) (staged : Staged s) :
    Yields (Confined p (s.stageOf p ≠ some 5) s) (serverRecvCb cipher cfg p io s) := by
  have h : Confined p (s.stageOf p ≠ some 5) s s := .refl inv.wf
  unfold serverRecvCb
  refine .bind fun sv hp => ?_
  replace hp := State.server?_eq_ok.1 hp
  split
  · exact .ok h
  · exact h.teardown_server hp
  rename_i bytes _
  dsimp only
  split
  · exact h.teardown_server hp
  refine .bind fun c _ => .bind fun c' _ => .bind fun u set => ?_
  obtain ⟨h₁, next⟩ := h.setBuffer (fun q => h.partner sv q hp) u set
  have keeps := setBuffer_keeps set
  have staged' : Staged (u.emit (.recv sv.fd (bytes.take bufSize))) :=
    (keeps.trans (Keeps.of_eq rfl)).staged staged
  have loop : ∀ l, serverRecvLoop cipher cfg p io 2 l _ = twoPasses cipher cfg p io l _ := fun _ =>
    serverRecvLoop_two cipher cfg 0 staged'
  rw [loop]
  refine (h₁.emit _).twoPasses cipher cfg (fun q => h.partner sv q hp)
    (fun y past => (inv.dead (by simpa [next] using past)).2) fun sv' hp' below e => below ?_
  exact Option.some.inj ((keeps p _ (State.stageOf_of hp')).symm.trans e)

theorem dispatch_confined {w : Watcher} (inv : Inv s) (staged : Staged s) (hw : s.sessionOf w = some p) :
    Yields (Confined p (s.stageOf p ≠ some 5) s) (dispatch cipher cfg w io s) := by
  have h : Confined p (s.stageOf p ≠ some 5) s s := .refl inv.wf
  have within : ∀ q, w.owner = .remote q → Within p s q := fun q e rm hq => by
    simpa [State.sessionOf, e, hq] using hw
  cases w with
  | serverRecv x =>
    obtain rfl : x = p := Option.some.inj hw
    exact serverRecvCb_confined cipher cfg inv staged
  | serverSend x =>
    obtain rfl : x = p := Option.some.inj hw
    exact h.serverSendCb
  | remoteRecv q => exact h.remoteRecvCb cipher cfg (within q rfl)
  | remoteSend q => exact h.remoteSendCb (within q rfl)
  | connectTimer q => exact (h.stop _).remoteTimeoutCb (within q rfl)
  | idleTimer q => exact (h.timerAgain _ _).remoteTimeoutCb (within q rfl)

/-- `remote_timeout_cb` ends the session its remote points back to. -/
theorem remoteTimeoutCb_ends {q : Ptr} {u : State σ} (hq : (u.remotes q).bind Remote.server = some p)
    (h : remoteTimeoutCb q u = .ok t) : t.servers p = none := by
  obtain ⟨rm, hrm, td⟩ := bind_eq_ok.1 h
  have back : rm.server = some p := by simpa [State.remote?_eq_ok.1 hrm] using hq
  rw [back] at td
  have lands := State.teardown_lands u (some q) (some p)
  rw [td] at lands
  exact lands.2.2 p rfl

end Callbacks

/-- A confined step between two well-formed states that moves the stages as the source does
leaves every other session alone and ends session `p` whole or not at all. -/
theorem Confined.sessionStep {p : Ptr} {s t : State σ} (h : Confined p (s.stageOf p ≠ some 5) s t)
    (wf : Wf s) (wf' : Wf t) (moves : Moves s t) (staged : Staged t) : SessionStep p s t where
  servers := h.servers
  remotes y rm hy other := by
    by_contra ne
    exact other ((h.remotes y fun e => ne (e.trans hy)).1 rm hy)
  whole y rm hy back := by
    obtain ⟨x, sv, hx, hp, paired⟩ := wf.back y rm hy
    obtain rfl : x = p := Option.some.inj (hx.symm.trans back)
    have five : sv.stage = 5 := (wf.stage x sv hp).1 (by simp [paired])
    constructor
    · intro gone
      by_contra live
      obtain ⟨rm', hy'⟩ := Option.ne_none_iff_exists'.1 live
      obtain ⟨x', sv', hx', hp', paired'⟩ := wf'.back y rm' hy'
      have ne : x' ≠ x := by rintro rfl; simp [gone] at hp'
      rw [h.servers x' ne] at hp'
      obtain ⟨rm₁, hy₁, back₁⟩ := wf.pair x' sv' y hp' paired'
      rw [hy] at hy₁
      cases hy₁
      exact ne (Option.some.inj (back₁.symm.trans hx))
    · intro gone
      by_contra live
      obtain ⟨sv', hp'⟩ := Option.ne_none_iff_exists'.1 live
      have five' : sv'.stage = 5 := by
        have := moves.le (State.stageOf_of hp) (State.stageOf_of hp')
        rcases staged x sv'.stage (State.stageOf_of hp') with e | e | e <;> omega
      obtain ⟨y', paired'⟩ := Option.isSome_iff_exists.1 ((wf'.stage x sv' hp').2 five')
      obtain ⟨rm', hy', -⟩ := wf'.pair x sv' y' hp' paired'
      have ne : y' ≠ y := by rintro rfl; simp [gone] at hy'
      cases hs : s.remotes y' with
      | none => exact h.opened y' hs (by simp [hy']) (by simp [State.stageOf_of hp, five])
      | some rm₀ =>
        obtain ⟨x₀, sv₀, hx₀, hp₀, paired₀⟩ := wf.back y' rm₀ hs
        obtain rfl : x₀ = x := Option.some.inj (hx₀.symm.trans (h.partner sv' y' hp' paired' rm₀ hs))
        obtain rfl : sv₀ = sv := Option.some.inj (hp₀.symm.trans hp)
        exact ne (Option.some.inj (paired₀.symm.trans paired))

section Reachable

variable (cipher : Cipher σ) (cfg : Config) {s : State σ}

/-- The session structure of every reachable state, and what each callback does to it: (a) to
(d) hold, tearing a live session down releases exactly its records, blocks and descriptors, and
a callback that returns leaves every other session's records as they were and ends its own
session whole or not at all; a timer that fires ends its session. -/
theorem session_structure (reach : Reachable cipher cfg s) :
    Wf s ∧ TeardownExact s ∧
      ∀ w io t p, s.active w = true → s.sessionOf w = some p → dispatch cipher cfg w io s = .ok t →
        SessionStep p s t ∧ (∀ q, w = .connectTimer q ∨ w = .idleTimer q → t.servers p = none) := by
  have g := reachable_good cipher cfg reach
  refine ⟨g.inv.wf, g.inv.teardownExact, fun w io t p active hw h => ⟨?_, ?_⟩⟩
  · have step : Step cipher cfg s t := .tick (.fire w) io ((tick_fire cipher cfg active).trans h)
    have reach' := reach.step step
    exact (dispatch_confined cipher cfg g.inv (reachable_staged cipher cfg reach) hw t h).sessionStep g.inv.wf
      (reachable_good cipher cfg reach').inv.wf (step_moves cipher cfg g.inv step) (reachable_staged cipher cfg reach')
  · rintro q (rfl | rfl)
    · exact remoteTimeoutCb_ends (u := s.stop _) hw h
    · exact remoteTimeoutCb_ends (u := s.timerAgain _ _) (by simpa using hw) h

end Reachable

/-- Two clients: the first has asked for 127.0.0.1:80 and is paired with remote 8, the second
has just been accepted. -/
theorem session_structure_two_sessions :
    ∃ s, Reachable Cipher.identity plainCfg s ∧ (s.servers 1).isSome ∧ (s.remotes 8).isSome ∧ (s.servers 13).isSome ∧
      (Wf s ∧ TeardownExact s ∧
        ∀ w io t p, s.active w = true → s.sessionOf w = some p → dispatch Cipher.identity plainCfg w io s = .ok t →
          SessionStep p s t ∧ (∀ q, w = .connectTimer q ∨ w = .idleTimer q → t.servers p = none)) := by
  obtain ⟨s, reach, live⟩ := exists_of_run Cipher.identity plainCfg [(.accept, {}),
    (.fire (.serverRecv 1), { recv := .data [5, 1, 0], reply := .accept 2 }),
    (.fire (.serverRecv 1), { recv := .data [5, 1, 0, 1, 127, 0, 0, 1, 0, 80, 71, 69, 84], reply := .accept 10 }),
    (.accept, {})]
    (fun s => (s.servers 1).isSome ∧ (s.remotes 8).isSome ∧ (s.servers 13).isSome) (by decide)
  exact ⟨s, reach, live.1, live.2.1, live.2.2, session_structure Cipher.identity plainCfg reach⟩

end Shadowsocks.Local
