import ShadowsocksLocal.Faults

/-! Descriptor accounting. Every descriptor the loop holds open is the descriptor of exactly one
live endpoint: `accept_cb` and `connect_to_remote` open one only for the record they make, at an
address nothing uses, and `close_and_free_*` close the descriptor of each record before they free
it. `Releases` says what every other step does to the descriptors: it opens none, and an endpoint
keeps its descriptor while that is open. -/
namespace Shadowsocks.Local

variable {σ : Type} {α β : Type}

/-- `x` satisfies `post` whenever it returns. -/
def Yields (post : α → Prop) (x : Except Fault α) : Prop := ∀ a, x = .ok a → post a

/-- Every open descriptor is the descriptor of a live endpoint. -/
def Accounted (s : State σ) : Prop := ∀ fd, s.fds fd = true → ∃ e, s.fdOf e = some fd

/-- What a step that opens nothing does to the descriptors: each descriptor open in `t` was open
in `s`, and an endpoint of `s` keeps its descriptor while that is open. -/
structure Releases (s t : State σ) : Prop where
  fds : ∀ fd, t.fds fd = true → s.fds fd = true
  owner : ∀ e fd, s.fdOf e = some fd → t.fds fd = true → t.fdOf e = some fd

namespace Yields

theorem bind {Q : β → Prop} {x : Except Fault α} {f : α → Except Fault β}
    (hf : ∀ a, x = .ok a → Yields Q (f a)) : Yields Q (x >>= f) := fun b h =>
  let ⟨a, ha, h⟩ := bind_eq_ok.1 h
  hf a ha b h

theorem ok {P : α → Prop} {a : α} (h : P a) : Yields P (.ok a) := fun _ e => Except.ok.inj e ▸ h

theorem mono {P Q : α → Prop} {x : Except Fault α} (h : Yields P x) (imp : ∀ a, P a → Q a) : Yields Q x :=
  fun a e => imp a (h a e)

end Yields

theorem State.fdOf_setServer_apply {s : State σ} {p : Ptr} {sv : Server σ} (e : Endpoint) :
    (s.setServer p sv).fdOf e = if e = .server p then some sv.fd else s.fdOf e := by
  cases e with
  | server x => by_cases h : x = p <;> simp [State.fdOf, h]
  | remote y => simp [State.fdOf]

theorem State.fdOf_setRemote_apply {s : State σ} {q : Ptr} {rm : Remote} (e : Endpoint) :
    (s.setRemote q rm).fdOf e = if e = .remote q then some rm.fd else s.fdOf e := by
  cases e with
  | server x => simp [State.fdOf]
  | remote y => by_cases h : y = q <;> simp [State.fdOf, h]

namespace Releases

variable {s t u : State σ} {p q : Ptr}

theorem refl (s : State σ) : Releases s s := ⟨fun _ => id, fun _ _ h _ => h⟩

theorem trans (h₁ : Releases s t) (h₂ : Releases t u) : Releases s u :=
  ⟨fun fd o => h₁.fds fd (h₂.fds fd o), fun e fd h o => h₂.owner e fd (h₁.owner e fd h (h₂.fds fd o)) o⟩

/-- A step that closes descriptors at most and leaves every endpoint's descriptor. -/
theorem step (h : Releases s u) (fds : ∀ fd, t.fds fd = true → u.fds fd = true)
    (fdOf : ∀ e, t.fdOf e = u.fdOf e) : Releases s t :=
  h.trans ⟨fds, fun e _ h' _ => (fdOf e).trans h'⟩

theorem start (h : Releases s u) (w : Watcher) : Releases s (u.start w) := h.step (fun _ => id) (fun _ => rfl)

theorem stop (h : Releases s u) (w : Watcher) : Releases s (u.stop w) := h.step (fun _ => id) (fun _ => rfl)

theorem emit (h : Releases s u) (e : Event) : Releases s (u.emit e) := h.step (fun _ => id) (fun _ => rfl)

theorem malloc (h : Releases s u) : Releases s u.malloc.2 := h.step (fun _ => id) (fun _ => rfl)

theorem timerAgain (h : Releases s u) (w : Watcher) (period : Int) : Releases s (u.timerAgain w period) := by
  unfold State.timerAgain; split
  · exact h.start w
  · exact h.stop w

theorem sendBytes (h : Releases s u) (fd : Fd) (site : Site) (bytes : List Byte) (res : Send) :
    Releases s (u.sendBytes fd site bytes res).2 := by
  cases res with
  | accept n => exact h.emit _
  | error e => exact h

theorem send {fd : Fd} {site : Site} {c : Buf} {idx len : Int} {res : Send} {x : Except Errno Nat}
    (h : Releases s u) (sent : u.send fd site c idx len res = .ok (x, t)) : Releases s t := by
  rw [show t = _ from congrArg Prod.snd (State.send_eq_ok sent).2.2.2]
  exact h.sendBytes _ _ _ _

theorem free {c : Ptr} (h : Releases s u) (freed : u.free c = .ok t) : Releases s t := by
  rw [(State.free_eq_ok.1 freed).2]
  exact h.step (fun _ => id) (fun _ => rfl)

theorem close (h : Releases s u) (fd : Fd) : Releases s (u.close fd) :=
  h.step (fun x o => by by_cases e : x = fd <;> simp_all) (fun _ => rfl)

/-- Rewriting a record of `s` with its descriptor kept. -/
theorem setServer {sv sv' : Server σ} (h : Releases s u) (hp : s.servers p = some sv) (same : sv'.fd = sv.fd) :
    Releases s (u.setServer p sv') where
  fds := h.fds
  owner e fd hs o := by
    rw [State.fdOf_setServer_apply]
    split
    · subst e; simp only [State.fdOf, hp, Option.map_some', Option.some.injEq] at hs; rw [same, hs]
    · exact h.owner e fd hs o

theorem setRemote {rm rm' : Remote} (h : Releases s u) (hq : s.remotes q = some rm) (same : rm'.fd = rm.fd) :
    Releases s (u.setRemote q rm') where
  fds := h.fds
  owner e fd hs o := by
    rw [State.fdOf_setRemote_apply]
    split
    · subst e; simp only [State.fdOf, hq, Option.map_some', Option.some.injEq] at hs; rw [same, hs]
    · exact h.owner e fd hs o

/-- Freeing a record whose descriptor was closed. -/
theorem dropServer (h : Releases s u) (closed : ∀ sv, s.servers p = some sv → s.fds sv.fd = false) :
    Releases s { u with servers := Function.update u.servers p none } where
  fds := h.fds
  owner e fd hs o := by
    cases e with
    | server x =>
      by_cases e : x = p
      · subst e
        obtain ⟨sv, hp, rfl⟩ := Option.map_eq_some'.1 hs
        exact absurd (closed sv hp) (by simp [h.fds _ o])
      · simpa [State.fdOf, e] using h.owner _ fd hs o
    | remote y => exact h.owner _ fd hs o

theorem dropRemote (h : Releases s u) (closed : ∀ rm, s.remotes q = some rm → s.fds rm.fd = false) :
    Releases s { u with remotes := Function.update u.remotes q none } where
  fds := h.fds
  owner e fd hs o := by
    cases e with
    | server x => exact h.owner _ fd hs o
    | remote y =>
      by_cases e : y = q
      · subst e
        obtain ⟨rm, hq, rfl⟩ := Option.map_eq_some'.1 hs
        exact absurd (closed rm hq) (by simp [h.fds _ o])
      · simpa [State.fdOf, e] using h.owner _ fd hs o

end Releases

/-- A step that opens nothing, then a computation that opens nothing. -/
theorem Releases.then {s u : State σ} {x : Except Fault (State σ)} (h : Releases s u) (k : Yields (Releases u) x) :
    Yields (Releases s) x :=
  fun t ht => h.trans (k t ht)

theorem Accounted.release {s t : State σ} (a : Accounted s) (h : Releases s t) : Accounted t := fun fd o =>
  let ⟨e, he⟩ := a fd (h.fds fd o)
  ⟨e, h.owner e fd he o⟩

/-- A new record, at an endpoint with none, on the one descriptor just opened. -/
theorem Accounted.adopt {s t : State σ} (e : Endpoint) (fd : Fd) (a : Accounted s) (vacant : s.fdOf e = none)
    (fds : ∀ x, t.fds x = true → s.fds x = true ∨ x = fd) (owner : t.fdOf e = some fd)
    (keep : ∀ e', e' ≠ e → t.fdOf e' = s.fdOf e') : Accounted t := fun x o => by
  rcases fds x o with old | rfl
  · obtain ⟨e', he'⟩ := a x old
    refine ⟨e', ?_⟩
    rw [keep e' (by rintro rfl; simp [vacant] at he')]
    exact he'
  · exact ⟨e, owner⟩

section Lifecycle

variable {s : State σ} {p q : Ptr}

namespace State

theorem free_releases (s : State σ) (c : Ptr) : Yields (Releases s) (s.free c) := fun _ h => (Releases.refl s).free h

theorem freeOpt_releases (s : State σ) (o : Option Ptr) : Yields (Releases s) (s.freeOpt o) := by
  cases o with
  | none => exact .ok (.refl s)
  | some c => exact free_releases s c

theorem detachServer_releases (s : State σ) (o : Option Ptr) : Yields (Releases s) (s.detachServer o) := by
  cases o with
  | none => exact .ok (.refl s)
  | some p => exact .bind fun sv hp => .ok ((Releases.refl s).setServer (server?_eq_ok.1 hp) rfl)

theorem detachRemote_releases (s : State σ) (o : Option Ptr) : Yields (Releases s) (s.detachRemote o) := by
  cases o with
  | none => exact .ok (.refl s)
  | some q => exact .bind fun rm hq => .ok ((Releases.refl s).setRemote (remote?_eq_ok.1 hq) rfl)

theorem freeRemote_releases (s : State σ) (q : Ptr) (closed : ∀ rm, s.remotes q = some rm → s.fds rm.fd = false) :
    Yields (Releases s) (s.freeRemote q) := by
  unfold State.freeRemote
  exact .bind fun _ _ => .bind fun _ h₁ => .bind fun _ h₂ => .bind fun _ h₃ => .bind fun _ h₄ =>
    .bind fun _ h₅ => .bind fun _ h₆ => .ok (((((((detachServer_releases s _ _ h₁).trans
      (freeOpt_releases _ _ _ h₂)).trans (freeOpt_releases _ _ _ h₃)).free h₄).free h₅).free h₆).dropRemote closed)

theorem freeServer_releases (s : State σ) (p : Ptr) (closed : ∀ sv, s.servers p = some sv → s.fds sv.fd = false) :
    Yields (Releases s) (s.freeServer p) := by
  unfold State.freeServer
  refine .bind fun _ _ => .bind fun _ h₁ => .bind fun _ h₂ => .bind fun _ h₃ => .bind fun _ h₄ =>
    .bind fun _ h₅ => .bind fun _ h₆ => .bind fun _ h₇ => .ok ((((((?_ : Releases s _).trans
      (freeOpt_releases _ _ _ h₂)).trans (freeOpt_releases _ _ _ h₃)).trans (freeOpt_releases _ _ _ h₄)).free h₅).free h₆
      |>.free h₇ |>.dropServer closed)
  have erased : Releases s { s with connections := s.connections.erase p } :=
    (Releases.refl s).step (fun _ => id) (fun _ => rfl)
  exact erased.trans (detachRemote_releases _ _ _ h₁)

/-- `close_and_free_remote` closes the descriptor before `free_remote` frees the record. -/
theorem closeAndFreeRemote_releases (s : State σ) (o : Option Ptr) :
    Yields (Releases s) (s.closeAndFreeRemote o) := by
  cases o with
  | none => exact .ok (.refl s)
  | some q =>
    refine .bind fun rm hq t h => ?_
    refine (((((Releases.refl s).stop _).stop _).stop _).stop _ |>.close rm.fd).trans (freeRemote_releases _ q ?_ t h)
    intro rm' h'
    simp only [close_remotes, stop_remotes, remote?_eq_ok.1 hq, Option.some.injEq] at h'
    simp [← h']

theorem closeAndFreeServer_releases (s : State σ) (o : Option Ptr) :
    Yields (Releases s) (s.closeAndFreeServer o) := by
  cases o with
  | none => exact .ok (.refl s)
  | some p =>
    refine .bind fun sv hp t h => ?_
    refine (((Releases.refl s).stop _).stop _ |>.close sv.fd).trans (freeServer_releases _ p ?_ t h)
    intro sv' h'
    simp only [close_servers, stop_servers, server?_eq_ok.1 hp, Option.some.injEq] at h'
    simp [← h']

theorem teardown_releases (s : State σ) (r o : Option Ptr) : Yields (Releases s) (s.teardown r o) :=
  .bind fun _ h₁ t h₂ => (closeAndFreeRemote_releases s r _ h₁).trans (closeAndFreeServer_releases _ o t h₂)

end State

/-- `connect_to_remote` opens a descriptor only for the record it makes, at an address no record
uses. -/
theorem connectToRemote_accounted (cfg : Config) (io : Io) (d : Option (List Byte × List Byte)) (a : Accounted s)
    (vacant : ∀ x, s.next ≤ x → s.remotes x = none) :
    Yields (fun r => Accounted r.2) (connectToRemote cfg s io d) := by
  unfold connectToRemote
  by_cases n : cfg.remoteNum = 0
  · simp only [n, if_true, throw_bind]
    exact fun _ h => absurd h throw_ne_ok
  simp only [n, if_false, pure_bind]
  split
  · exact .ok a
  split
  · exact .bind fun _ freed => .ok (a.release ((Releases.refl s).malloc.free freed))
  refine .ok (a.adopt (.remote (s.next + 2)) (s.next + 1) ?_ (fun x o => ?_) ?_ fun e' ne => ?_)
  · simp [State.fdOf, vacant (s.next + 2) (by omega)]
  · by_cases e : x = s.next + 1
    · exact .inr e
    · exact .inl (by simpa [newRemote, Function.update_noteq e] using o)
  · simp [State.fdOf, newRemote]
  · rw [State.fdOf_setRemote_apply, if_neg (by simpa [newRemote] using ne)]
    cases e' <;> simp [State.fdOf, newRemote]

theorem acceptCb_accounted (cipher : Cipher σ) (cfg : Config) (io : Io) (a : Accounted s)
    (vacant : s.servers (s.next + 1) = none) : Accounted (acceptCb cipher cfg s io) := by
  unfold acceptCb
  split
  · refine a.adopt (.server (s.next + 1)) s.next (by simp [State.fdOf, vacant])
      (fun x o => ?_) ?_ fun e' ne => ?_
    · by_cases e : x = s.next
      · exact .inr e
      · left
        by_cases m : cfg.method = 0 <;> simpa [newServer, m, Function.update_noteq e] using o
    · by_cases m : cfg.method = 0 <;> simp [State.fdOf, newServer, m]
    · cases e' with
      | server x =>
        have : x ≠ s.next + 1 := fun h => ne (by rw [h])
        by_cases m : cfg.method = 0 <;> simp [State.fdOf, newServer, m, this]
      | remote y => by_cases m : cfg.method = 0 <;> simp [State.fdOf, newServer, m]
  · exact a

end Lifecycle

section Relay

variable (cipher : Cipher σ) (cfg : Config) {io : Io} {s : State σ} {p q : Ptr}

theorem sendUp_releases {r : Int} : Yields (Releases s) (sendUp p q io r s) := by
  unfold sendUp
  refine .bind fun rm hq => ?_
  replace hq := State.remote?_eq_ok.1 hq
  have h₁ : Releases s (s.setRemote q { rm with bufIdx := 0, bufLen := r }) := (Releases.refl s).setRemote hq rfl
  dsimp only
  split
  · split
    · exact .ok (((h₁.stop _).start _).start _)
    refine .bind fun c _ => .bind fun sr sent => ?_
    have h₂ := h₁.send sent
    split
    · exact .ok (((h₂.setRemote hq (by rfl)).stop _).start _)
    · exact Releases.then (by split_ifs <;> exact h₂.step (fun _ => id) (fun _ => rfl)) (State.teardown_releases _ _ _)
    · exact .ok (((h₂.setRemote hq (by split_ifs <;> rfl)).stop _).start _)
  · refine .bind fun c _ => .bind fun sr sent => ?_
    have h₂ := (Releases.refl s).send sent
    split
    · exact .ok (((h₂.setRemote hq (by rfl)).stop _).start _)
    · exact h₂.then (State.teardown_releases _ _ _)
    · split
      · exact .ok (((h₂.setRemote hq (by rfl)).stop _).start _)
      · exact .ok h₂

theorem relayUp_releases {remote : Option Ptr} {r : Int} : Yields (Releases s) (relayUp cipher p io remote r s) := by
  unfold relayUp
  cases remote with
  | none => exact State.closeAndFreeServer_releases _ _
  | some q =>
    refine .bind fun sv hp => .bind fun rm hq => ?_
    replace hp := State.server?_eq_ok.1 hp
    replace hq := State.remote?_eq_ok.1 hq
    split
    · refine .bind fun c _ => ?_
      dsimp only
      split
      · exact .bind fun u freed => ((Releases.refl s).free freed |>.setRemote hq (by rfl)).then
          (State.teardown_releases _ _ _)
      · exact ((((Releases.refl s).setServer hp (by rfl)).setRemote hq (by rfl)).emit _).then sendUp_releases
    · exact ((Releases.refl s).emit _).then sendUp_releases

theorem deliver_releases {r : Int} : Yields (Releases s) (deliver p q io r s) := by
  unfold deliver
  refine .bind fun sv hp => ?_
  replace hp := State.server?_eq_ok.1 hp
  refine .bind fun c _ => .bind fun sr sent => ?_
  have h₂ := (Releases.refl s).send sent
  split
  · exact .ok (((h₂.setServer hp (by rfl)).stop _).start _)
  · exact h₂.then (State.teardown_releases _ _ _)
  · split
    · exact .ok (((h₂.setServer hp (by rfl)).stop _).start _)
    · exact .ok h₂

theorem serverSendCb_releases : Yields (Releases s) (serverSendCb p io s) := by
  unfold serverSendCb
  refine .bind fun sv hp => ?_
  replace hp := State.server?_eq_ok.1 hp
  split
  · exact State.teardown_releases _ _ _
  refine .bind fun c _ => .bind fun sr sent => ?_
  have h₂ := (Releases.refl s).send sent
  split
  · split
    · exact h₂.then (State.teardown_releases _ _ _)
    · exact .ok h₂
  · split
    · exact .ok (h₂.setServer hp (by rfl))
    · exact .bind fun _ _ => .bind fun _ _ => .ok (((h₂.setServer hp (by rfl)).stop _).start _)

theorem remoteRecvCb_releases : Yields (Releases s) (remoteRecvCb cipher cfg q io s) := by
  unfold remoteRecvCb
  refine .bind fun rm _ => ?_
  have h₁ := (Releases.refl s).timerAgain (.idleTimer q) (idleRepeat cfg)
  refine .bind fun p _ => .bind fun sv hp => ?_
  replace hp : s.servers p = some sv := by simpa using State.server?_eq_ok.1 hp
  split
  · exact .ok h₁
  · exact h₁.then (State.teardown_releases _ _ _)
  dsimp only
  split
  · exact h₁.then (State.teardown_releases _ _ _)
  refine .bind fun c _ => .bind fun c' _ => ?_
  split
  · split
    · exact .bind fun u freed => (((h₁.setServer hp (by rfl)).emit _).free freed |>.setServer hp (by rfl)).then
        (State.teardown_releases _ _ _)
    · exact ((((h₁.setServer hp (by rfl)).emit _).setServer hp (by rfl)).emit _).then deliver_releases
  · exact (((h₁.setServer hp (by rfl)).emit _).emit _).then deliver_releases

theorem flushUp_releases {server : Option Ptr} : Yields (Releases s) (flushUp q server io s) := by
  unfold flushUp
  refine .bind fun rm hq => ?_
  replace hq := State.remote?_eq_ok.1 hq
  split
  · exact State.teardown_releases _ _ _
  refine .bind fun c _ => .bind fun sr sent => ?_
  have h₂ := (Releases.refl s).send sent
  split
  · split
    · exact h₂.then (State.teardown_releases _ _ _)
    · exact .ok h₂
  · split
    · exact .ok (h₂.setRemote hq (by rfl))
    · exact .bind fun _ _ => .bind fun _ _ => .ok (((h₂.setRemote hq (by rfl)).stop _).start _)

theorem remoteSendCb_releases : Yields (Releases s) (remoteSendCb q io s) := by
  unfold remoteSendCb
  refine .bind fun rm hq => ?_
  replace hq := State.remote?_eq_ok.1 hq
  have h₁ : Releases s ((((s.setRemote q { rm with connected := true }).stop (.connectTimer q)).start
      (.idleTimer q)).start (.remoteRecv q)) :=
    ((((Releases.refl s).setRemote hq (by rfl)).stop _).start _).start _
  split
  · split
    · split
      · exact .bind fun _ _ => .bind fun _ _ => .ok ((h₁.stop _).start _)
      · exact h₁.then flushUp_releases
    · exact State.teardown_releases _ _ _
  · exact flushUp_releases

theorem remoteTimeoutCb_releases : Yields (Releases s) (remoteTimeoutCb q s) :=
  .bind fun _ _ => State.teardown_releases _ _ _

end Relay

section Handshake

variable (cipher : Cipher σ) (cfg : Config) {io : Io} {s : State σ} {p : Ptr}

theorem greet_releases : Yields (Releases s) (greet p io s) :=
  .bind fun _ hp => .ok (((Releases.refl s).sendBytes _ _ _ _).setServer (State.server?_eq_ok.1 hp) (by rfl))

theorem reply_releases {udp : Bool} {addr : List Byte} {l : Locals} :
    Yields (fun pass => Releases s pass.state) (reply p io udp addr l s) := by
  unfold reply
  refine .bind fun sv hp => .bind fun c _ => .bind fun c' _ => .bind fun ⟨res, s₁⟩ sent => ?_
  have h₁ := ((Releases.refl s).setServer (State.server?_eq_ok.1 hp) (by rfl)).send sent
  simp only [pure_bind]
  split
  · exact .bind fun _ h => .ok (h₁.trans (State.teardown_releases _ _ _ _ h))
  split
  · exact .bind fun _ h => .ok (h₁.trans (State.teardown_releases _ _ _ _ h))
  · exact .ok h₁

/-- The CONNECT branch opens the descriptor of the remote it makes, at the next address. -/
theorem connectRequest_accounted {l : Locals} {c : Buf} (a : Accounted s)
    (vacant : ∀ x, s.next ≤ x → s.remotes x = none) :
    Yields (fun r => Accounted r.2) (connectRequest cfg p io l c s) := by
  unfold connectRequest
  refine .bind fun atyp _ => .bind fun parsed _ => ?_
  rcases parsed with _ | ⟨header, host, service⟩
  · exact .bind fun _ h => .ok (a.release ((Releases.refl s).malloc.trans (State.teardown_releases _ _ _ _ h)))
  refine .bind fun sv hp => ?_
  have h₁ : Releases s (s.malloc.2.setServer p { sv with stage := 5 }) :=
    (Releases.refl s).malloc.setServer (State.server?_eq_ok.1 hp) rfl
  refine .bind fun ⟨remote, s₃⟩ opened => .bind fun _ _ => ?_
  have a₃ : Accounted s₃ := connectToRemote_accounted cfg io _ (a.release h₁)
    (fun x past => by simpa using vacant x (by simp at past; omega)) _ opened
  cases remote with
  | none => exact .bind fun _ h => .ok (a₃.release (State.closeAndFreeServer_releases _ _ _ h))
  | some q =>
    refine .bind fun rm hq => .bind fun _ _ => .bind fun _ _ => .bind fun sv' hp' => .ok ?_
    exact a₃.release (((Releases.refl s₃).setServer (State.server?_eq_ok.1 hp') (by rfl)).setRemote
      (State.remote?_eq_ok.1 hq) (by rfl))

theorem request_accounted {l : Locals} (a : Accounted s) (vacant : ∀ x, s.next ≤ x → s.remotes x = none) :
    Yields (fun pass => Accounted pass.state) (request cfg p io l s) := by
  unfold request
  refine .bind fun sv _ => .bind fun c _ => .bind fun cmd _ => ?_
  split
  · exact reply_releases.mono fun _ h => a.release h
  split
  · exact .bind fun _ h => .ok (a.release (((Releases.refl s).sendBytes _ _ _ _).trans
      (State.teardown_releases _ _ _ _ h)))
  · refine .bind fun ⟨res, s₂⟩ conn => ?_
    have a₂ : Accounted s₂ := connectRequest_accounted cfg a vacant _ conn
    cases res with
    | none => exact .ok a₂
    | some l' => exact reply_releases.mono fun _ h => a₂.release h

/-- The two passes: only the stage-1 pass opens a descriptor. -/
theorem twoPasses_accounted {l : Locals} (a : Accounted s) (vacant : ∀ x, s.next ≤ x → s.remotes x = none) :
    Yields Accounted (twoPasses cipher cfg p io l s) := by
  unfold twoPasses
  refine .bind fun sv _ => ?_
  split
  · exact (relayUp_releases cipher).mono fun _ h => a.release h
  split
  · exact greet_releases.mono fun _ h => a.release h
  · refine .bind fun pass done => ?_
    have a₁ : Accounted pass.state := request_accounted cfg a vacant _ done
    cases pass with
    | done u => exact .ok a₁
    | again l u => exact (relayUp_releases cipher).mono fun _ h => a₁.release h

/-- `setBuffer` writes back a record that is there, so no address past the counter gets one. -/
theorem setBuffer_releases {o : Option Ptr} {c : Buf} (vacant : ∀ x, s.next ≤ x → s.remotes x = none) :
    Yields (fun u => Releases s u ∧ ∀ x, u.next ≤ x → u.remotes x = none) (setBuffer s p o c) := by
  cases o with
  | none =>
    exact .bind fun sv hp => .ok ⟨(Releases.refl s).setServer (State.server?_eq_ok.1 hp) (by rfl),
      fun x past => by simpa using vacant x past⟩
  | some q =>
    refine .bind fun rm hq => .ok ⟨(Releases.refl s).setRemote (State.remote?_eq_ok.1 hq) (by rfl), fun x past => ?_⟩
    have ne : x ≠ q := by
      rintro rfl
      simp [vacant x past] at hq
    simpa [Function.update_noteq ne] using vacant x past

theorem serverRecvCb_accounted (a : Accounted s) (vacant : ∀ x, s.next ≤ x → s.remotes x = none)
    (staged : Staged s) : Yields Accounted (serverRecvCb cipher cfg p io s) := by
  unfold serverRecvCb
  refine .bind fun sv _ => ?_
  split
  · exact .ok a
  · exact (State.teardown_releases _ _ _).mono fun _ h => a.release h
  rename_i bytes _
  dsimp only
  split
  · exact (State.teardown_releases _ _ _).mono fun _ h => a.release h
  refine .bind fun c _ => .bind fun c' _ => .bind fun u set => ?_
  obtain ⟨h₁, vacant₁⟩ := setBuffer_releases vacant u set
  have staged' : Staged (u.emit (.recv sv.fd (bytes.take bufSize))) :=
    ((setBuffer_keeps set).trans (Keeps.of_eq rfl)).staged staged
  have loop : ∀ l, serverRecvLoop cipher cfg p io 2 l _ = twoPasses cipher cfg p io l _ := fun _ =>
    serverRecvLoop_two cipher cfg 0 staged'
  rw [loop]
  exact twoPasses_accounted cipher cfg (a.release (h₁.emit _)) vacant₁

end Handshake

section Reactor

variable (cipher : Cipher σ) (cfg : Config) {s : State σ}

theorem dispatch_accounted {w : Watcher} {io : Io} (a : Accounted s) (inv : Inv s) (staged : Staged s) :
    Yields Accounted (dispatch cipher cfg w io s) := by
  cases w with
  | serverRecv p => exact serverRecvCb_accounted cipher cfg a (fun _ past => (inv.dead past).2) staged
  | serverSend p => exact serverSendCb_releases.mono fun _ h => a.release h
  | remoteRecv q => exact (remoteRecvCb_releases cipher cfg).mono fun _ h => a.release h
  | remoteSend q => exact remoteSendCb_releases.mono fun _ h => a.release h
  | connectTimer q => exact ((Releases.refl s).stop _).then remoteTimeoutCb_releases |>.mono fun _ h => a.release h
  | idleTimer q =>
    exact ((Releases.refl s).timerAgain _ _).then remoteTimeoutCb_releases |>.mono fun _ h => a.release h

/-- Every reachable state accounts for each open descriptor. -/
theorem reachable_accounted (reach : Reachable cipher cfg s) : Accounted s := by
  induction reach with
  | init => exact fun _ h => nomatch h
  | @step u u' reach step ih =>
    obtain ⟨t, io, h⟩ := step
    have inv := (reachable_good cipher cfg reach).inv
    cases t with
    | accept =>
      cases h
      exact acceptCb_accounted cipher cfg io ih (inv.dead (Nat.le_succ _)).1
    | fire w =>
      simp only [tick] at h
      split at h
      · exact dispatch_accounted cipher cfg ih inv (reachable_staged cipher cfg reach) _ h
      · cases h; exact ih

/-- No descriptor leaks and none is shared: in every reachable state a descriptor is open exactly
when it is the descriptor of a live endpoint, and then of exactly one. -/
theorem open_descriptors_owned (reach : Reachable cipher cfg s) (fd : Fd) :
    s.fds fd = true ↔ ∃! e, s.fdOf e = some fd := by
  have owns := (reachable_good cipher cfg reach).inv.owns
  refine ⟨fun o => ?_, fun ⟨e, he, _⟩ => owns.fdOpen e fd he⟩
  obtain ⟨e, he⟩ := reachable_accounted cipher cfg reach fd o
  exact ⟨e, he, fun e' he' => Classical.byContradiction fun ne => owns.fdDistinct e' e fd ne he' he⟩

/-- After a CONNECT, the descriptor `connect_to_remote` opened is open and is the remote's. -/
theorem open_descriptors_after_connect :
    ∃ s, Reachable Cipher.identity plainCfg s ∧ s.fds 7 = true ∧ s.fdOf (.remote 8) = some 7 ∧
      (s.fds 7 = true ↔ ∃! e, s.fdOf e = some 7) := by
  obtain ⟨s, reach, o, owner⟩ := exists_of_run Cipher.identity plainCfg [(.accept, {}),
    (.fire (.serverRecv 1), { recv := .data [5, 1, 0], reply := .accept 2 }),
    (.fire (.serverRecv 1), { recv := .data [5, 1, 0, 1, 127, 0, 0, 1, 0, 80], reply := .accept 10 })]
    (fun s => s.fds 7 = true ∧ s.fdOf (.remote 8) = some 7) (by decide)
  exact ⟨s, reach, o, owner, open_descriptors_owned Cipher.identity plainCfg reach 7⟩

end Reactor

end Shadowsocks.Local
