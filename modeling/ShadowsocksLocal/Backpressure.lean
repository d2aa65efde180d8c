import ShadowsocksLocal.ForwardPath

/-! The watchers each session waits on, with fast open off. During the handshake only the read
of the client is started; while the upstream connects, its write watcher and the connect timer;
once connected, the idle timer and, in each direction, either the read of one side or the write
of the other, never both (`server->recv_ctx` against `remote->send_ctx` upstream,
`remote->recv_ctx` against `server->send_ctx` downstream). `Phase` is this as an abstract
machine, `Waiting` the invariant the callbacks keep, and `Steady` a step that starts or stops
no watcher of a live session. The idle timer is restarted by `ev_timer_again`, so it stays
started only when its repeat `timeout * 60` is not zero. -/
namespace Shadowsocks.Local

variable {σ : Type} {s t u v s' : State σ} {p q : Ptr} {sv : Server σ} {rm : Remote} {fresh : Option Ptr}

/-- The phases of a session, as the event loop waits on it: `up` when `remote->buf` is being
flushed upstream, `down` when `server->buf` is being flushed to the client. -/
inductive Phase where
  | handshake
  | connecting
  | relaying (up down : Bool)
  deriving DecidableEq, Repr

/-- The watchers of the session of server `p` (and remote `q` once paired) started in a phase. -/
def Phase.armed (p q : Ptr) : Phase → Watcher → Bool
  | .handshake, w => w == .serverRecv p
  | .connecting, w => w == .remoteSend q || w == .connectTimer q
  | .relaying up down, w =>
    w == .idleTimer q || w == (if up then .remoteSend q else .serverRecv p) ||
      w == (if down then .serverSend p else .remoteRecv q)

/-- The watchers of a paired session: connecting (`false`) or connected (`true`). -/
def Linked (s : State σ) (p q : Ptr) : Bool → Prop
  | false => s.active (.serverRecv p) = false ∧ s.active (.serverSend p) = false ∧
      s.active (.remoteRecv q) = false ∧ s.active (.remoteSend q) = true ∧
      s.active (.connectTimer q) = true ∧ s.active (.idleTimer q) = false
  | true => s.active (.serverRecv p) = !s.active (.remoteSend q) ∧
      s.active (.remoteRecv q) = !s.active (.serverSend p) ∧
      s.active (.connectTimer q) = false ∧ s.active (.idleTimer q) = true

theorem Linked.congr {c : Bool} (same : ∀ x, (x.owner = .server p ∨ x.owner = .remote q) → t.active x = s.active x)
    (h : Linked s p q c) : Linked t p q c := by
  have e : ∀ x, (x.owner = .server p ∨ x.owner = .remote q) → t.active x = s.active x := same
  cases c <;> simp only [Linked] at h ⊢ <;>
    rw [e (.serverRecv p) (by simp [Watcher.owner]), e (.serverSend p) (by simp [Watcher.owner]),
      e (.remoteRecv q) (by simp [Watcher.owner]), e (.remoteSend q) (by simp [Watcher.owner]),
      e (.connectTimer q) (by simp [Watcher.owner]), e (.idleTimer q) (by simp [Watcher.owner])] <;> exact h

/-- Every live session waits on the watchers of its phase. `fresh` is the remote the CONNECT
branch has just paired with its server and whose watchers are not started yet, while the
client is still read. -/
structure Waiting (s : State σ) (fresh : Option Ptr) : Prop where
  handshake : ∀ p sv, s.servers p = some sv → sv.remote = none →
    s.active (.serverRecv p) = true ∧ s.active (.serverSend p) = false
  linked : ∀ q rm p, s.remotes q = some rm → rm.server = some p → fresh ≠ some q → Linked s p q rm.connected
  attached : ∀ q rm p, fresh = some q → s.remotes q = some rm → rm.server = some p →
    rm.connected = false ∧ s.active (.serverRecv p) = true ∧ s.active (.serverSend p) = false ∧
      ∀ w, w.owner = .remote q → s.active w = false

/-- A step that starts or stops no watcher of a live endpoint, pairs no server and connects no
remote. -/
structure Steady (s s' : State σ) : Prop where
  servers : ∀ p sv', s'.servers p = some sv' → ∃ sv, s.servers p = some sv ∧ sv'.remote = sv.remote
  remotes : ∀ q rm', s'.remotes q = some rm' → ∃ rm, s.remotes q = some rm ∧ rm'.server = rm.server ∧
    rm'.connected = rm.connected
  active : ∀ w, s'.isLive w.owner → s'.active w = s.active w

namespace Steady

theorem refl (s : State σ) : Steady s s :=
  ⟨fun _ sv h => ⟨sv, h, rfl⟩, fun _ rm h => ⟨rm, h, rfl, rfl⟩, fun _ _ => rfl⟩

theorem live (h : Steady s s') {e : Endpoint} (live : s'.isLive e) : s.isLive e := by
  cases e with
  | server x =>
    obtain ⟨sv', hx⟩ := Option.isSome_iff_exists.1 live
    obtain ⟨sv, hx₀, -⟩ := h.servers x sv' hx
    simp [State.isLive, hx₀]
  | remote y =>
    obtain ⟨rm', hy⟩ := Option.isSome_iff_exists.1 live
    obtain ⟨rm, hy₀, -⟩ := h.remotes y rm' hy
    simp [State.isLive, hy₀]

theorem trans (h : Steady s t) (h' : Steady t u) : Steady s u where
  servers p sv'' hp := by
    obtain ⟨sv', hp', r'⟩ := h'.servers p sv'' hp
    obtain ⟨sv, hp, r⟩ := h.servers p sv' hp'
    exact ⟨sv, hp, r'.trans r⟩
  remotes q rm'' hq := by
    obtain ⟨rm', hq', b', c'⟩ := h'.remotes q rm'' hq
    obtain ⟨rm, hq, b, c⟩ := h.remotes q rm' hq'
    exact ⟨rm, hq, b'.trans b, c'.trans c⟩
  active w live := (h'.active w live).trans (h.active w (h'.live live))

theorem waiting (h : Steady s s') (wf : Wf s') (w : Waiting s fresh) : Waiting s' fresh where
  handshake x sv' hx alone := by
    obtain ⟨sv, hx₀, r⟩ := h.servers x sv' hx
    have live : s'.isLive (.server x) := by simp [State.isLive, hx]
    rw [h.active (.serverRecv x) live, h.active (.serverSend x) live]
    exact w.handshake x sv hx₀ (r ▸ alone)
  linked y rm' x hy back other := by
    obtain ⟨rm, hy₀, b, c⟩ := h.remotes y rm' hy
    obtain ⟨x', sv', back', hx, -⟩ := wf.back y rm' hy
    rw [back] at back'
    cases back'
    rw [c]
    refine Linked.congr (fun z owner => h.active z ?_) (w.linked y rm x hy₀ (b ▸ back) other)
    rcases owner with owner | owner <;> rw [owner] <;> simp [State.isLive, hx, hy]
  attached y rm' x new hy back := by
    obtain ⟨rm, hy₀, b, c⟩ := h.remotes y rm' hy
    obtain ⟨x', sv', back', hx, -⟩ := wf.back y rm' hy
    rw [back] at back'
    cases back'
    obtain ⟨conn, reading, writing, idle⟩ := w.attached y rm x new hy₀ (b ▸ back)
    have liveX : s'.isLive (.server x) := by simp [State.isLive, hx]
    refine ⟨c.trans conn, (h.active (.serverRecv x) liveX).trans reading, (h.active (.serverSend x) liveX).trans writing,
      fun z owner => ?_⟩
    rw [h.active z (by simp [owner, State.isLive, hy]), idle z owner]

theorem setServer {sv' : Server σ} (hp : s.servers p = some sv) (same : sv'.remote = sv.remote) :
    Steady s (s.setServer p sv') where
  servers x sv'' hx := by
    by_cases e : x = p
    · subst e
      simp only [State.setServer_servers, Function.update_same, Option.some.injEq] at hx
      exact ⟨sv, hp, hx ▸ same⟩
    · exact ⟨sv'', by simpa [e] using hx, rfl⟩
  remotes _ rm h := ⟨rm, h, rfl, rfl⟩
  active _ _ := rfl

theorem setRemote {rm' : Remote} (hq : s.remotes q = some rm) (server : rm'.server = rm.server)
    (connected : rm'.connected = rm.connected) : Steady s (s.setRemote q rm') where
  servers _ sv h := ⟨sv, h, rfl⟩
  remotes y rm'' hy := by
    by_cases e : y = q
    · subst e
      simp only [State.setRemote_remotes, Function.update_same, Option.some.injEq] at hy
      exact ⟨rm, hq, hy ▸ server, hy ▸ connected⟩
    · exact ⟨rm'', by simpa [e] using hy, rfl, rfl⟩
  active _ _ := rfl

/-- A step that touches no record or watcher: `malloc`, `free`, events. -/
theorem same (servers : t.servers = s.servers) (remotes : t.remotes = s.remotes) (active : t.active = s.active) :
    Steady s t :=
  ⟨fun _ sv h => ⟨sv, servers ▸ h, rfl⟩, fun _ rm h => ⟨rm, remotes ▸ h, rfl, rfl⟩, fun w _ => by rw [active]⟩

theorem emit (e : Event) : Steady s (s.emit e) := same rfl rfl rfl

theorem heap (h : Ptr → Bool) (n : Nat) : Steady s { s with heap := h, next := n } := same rfl rfl rfl

theorem free {b : Ptr} (h : u.free b = .ok t) : Steady u t := by
  obtain ⟨-, rfl⟩ := State.free_eq_ok.1 h
  exact same rfl rfl rfl

theorem sendBytes {fd : Fd} {site : Site} (bytes : List Byte) (res : Send) : Steady s (s.sendBytes fd site bytes res).2 := by
  unfold State.sendBytes
  split
  · exact emit _
  · exact refl s

theorem send {fd : Fd} {site : Site} {b : Buf} {idx len : Int} {res : Send} {x : Except Errno Nat}
    (h : s.send fd site b idx len res = .ok (x, s')) : Steady s s' := by
  rw [show s' = _ from congrArg Prod.snd (State.send_eq_ok h).2.2.2]
  exact sendBytes _ res

/-- Starting a watcher that is already started. -/
theorem start {w : Watcher} (started : s.active w = true) : Steady s (s.start w) :=
  same rfl rfl (Function.update_eq_self_iff.2 started.symm)

/-- `ev_timer_again` on a started timer with a nonzero repeat. -/
theorem timerAgain {w : Watcher} {period : Int} (nonzero : period ≠ 0) (started : s.active w = true) :
    Steady s (s.timerAgain w period) := by
  rw [State.timerAgain, if_pos nonzero]
  exact start started

theorem remove (es : List Endpoint) : Steady s (s.remove es) where
  servers x sv h := by
    simp only [State.remove_servers] at h
    split at h
    · cases h
    · exact ⟨sv, h, rfl⟩
  remotes y rm h := by
    simp only [State.remove_remotes] at h
    split at h
    · cases h
    · exact ⟨rm, h, rfl, rfl⟩
  active w live := by
    have kept := ((State.remove_isLive w.owner).1 live).2
    simp [kept]

end Steady

/-- The watchers of a session torn down together with it do not matter. -/
theorem State.remove_stop {es : List Endpoint} {w : Watcher} (gone : w.owner ∈ es) :
    (s.stop w).remove es = s.remove es := by
  ext1 <;> try rfl
  funext x
  by_cases e : x = w
  · subst e; simp [gone]
  · simp [Function.update_noteq e]

/-- Once its remote is gone, the session the CONNECT branch paired is no longer pending. -/
theorem Waiting.settle (w : Waiting s (some q)) (dead : s.remotes q = none) : Waiting s none where
  handshake := w.handshake
  linked y rm x hy back _ := w.linked y rm x hy back fun e => by
    cases e
    rw [dead] at hy
    cases hy
  attached _ _ _ e := by cases e

theorem Waiting.settle_of (w : Waiting s fresh) (dead : ∀ q, fresh = some q → s.remotes q = none) : Waiting s none := by
  cases fresh with
  | none => exact w
  | some q => exact w.settle (dead q rfl)

/-- A step that retunes the watchers of one paired session `p`, `q` to those of its (new)
connection flag and leaves every other session as it was. -/
theorem Waiting.retune {rm' : Remote} (w : Waiting s fresh) (inv : Inv s) (hq : s.remotes q = some rm)
    (back : rm.server = some p)
    (servers : ∀ x sv', t.servers x = some sv' → ∃ sv, s.servers x = some sv ∧ sv'.remote = sv.remote)
    (remotes : ∀ y, t.remotes y = if y = q then some rm' else s.remotes y) (server : rm'.server = some p)
    (frame : ∀ x, x.owner ≠ .server p → x.owner ≠ .remote q → t.active x = s.active x)
    (linked : Linked t p q rm'.connected) (settled : fresh = none ∨ fresh = some q) : Waiting t none where
  handshake x sv' hx alone := by
    obtain ⟨sv, hx₀, r⟩ := servers x sv' hx
    have ne : x ≠ p := by
      rintro rfl
      obtain ⟨x', sv₁, back', hx', paired⟩ := inv.wf.back q rm hq
      rw [back] at back'
      cases back'
      rw [hx₀] at hx'
      cases hx'
      rw [r, paired] at alone
      cases alone
    rw [frame _ (by simpa [Watcher.owner] using ne) (by simp [Watcher.owner]),
      frame _ (by simpa [Watcher.owner] using ne) (by simp [Watcher.owner])]
    exact w.handshake x sv hx₀ (r ▸ alone)
  linked y rm'' x hy back' _ := by
    rw [remotes] at hy
    split at hy
    · next e =>
      subst e
      cases hy
      rw [server] at back'
      cases back'
      exact linked
    · next ne =>
      have apart : x ≠ p := by
        rintro rfl
        exact ne (inv.sole_remote hq back hy back')
      refine Linked.congr (fun z owner => frame z ?_ ?_)
        (w.linked y rm'' x hy back' (by rcases settled with h | h <;> rw [h] <;> simp [Ne.symm ne]))
      · rcases owner with owner | owner <;> rw [owner] <;> simp [apart]
      · rcases owner with owner | owner <;> rw [owner] <;> simp [ne]
  attached _ _ _ e := by cases e

/-- The CONNECT branch pairs unpaired server `p` with a new remote `q`; no watcher moves. -/
theorem Waiting.attach {sv' : Server σ} {rm' : Remote} (w : Waiting s none) (inv : Inv s)
    (hp : s.servers p = some sv) (alone : sv.remote = none)
    (servers : ∀ x, t.servers x = if x = p then some sv' else s.servers x) (paired : sv'.remote = some q)
    (remotes : ∀ y, t.remotes y = if y = q then some rm' else s.remotes y) (back : rm'.server = some p)
    (connected : rm'.connected = false) (new : s.next ≤ q) (active : t.active = s.active) : Waiting t (some q) where
  handshake x sv'' hx unpaired := by
    rw [servers] at hx
    split at hx
    · cases hx
      rw [paired] at unpaired
      cases unpaired
    · rw [active]
      exact w.handshake x sv'' hx unpaired
  linked y rm'' x hy back' other := by
    rw [remotes, if_neg (fun e => other (congrArg some e.symm))] at hy
    refine Linked.congr (fun z _ => by rw [active]) (w.linked y rm'' x hy back' (by simp))
  attached y rm'' x e hy back' := by
    cases e
    rw [remotes, if_pos rfl] at hy
    cases hy
    rw [back] at back'
    cases back'
    obtain ⟨reading, writing⟩ := w.handshake p sv hp alone
    refine ⟨connected, active ▸ reading, active ▸ writing, fun z owner => ?_⟩
    cases a : s.active z
    · rw [active, a]
    · have live := inv.wf.armed z a
      rw [owner] at live
      simp [State.isLive, (inv.dead new).2] at live

/-- `accept_cb`: a new unpaired server on a fresh address, read from at once. -/
theorem Waiting.addServer (w : Waiting s none) (inv : Inv s) (servers : ∀ x, x ≠ p → t.servers x = s.servers x)
    (remotes : t.remotes = s.remotes) (active : t.active = Function.update s.active (.serverRecv p) true)
    (new : s.next ≤ p) : Waiting t none where
  handshake x sv hx alone := by
    rw [active]
    by_cases e : x = p
    · subst e
      refine ⟨by simp, ?_⟩
      rw [Function.update_noteq (by simp)]
      cases a : s.active (.serverSend x)
      · rfl
      · have live := inv.wf.armed _ a
        simp [State.isLive, Watcher.owner, (inv.dead new).1] at live
    · rw [servers x e] at hx
      rw [Function.update_noteq (by simpa using e), Function.update_noteq (by simp)]
      exact w.handshake x sv hx alone
  linked y rm x hy back _ := by
    rw [remotes] at hy
    obtain ⟨x', sv, back', hx, -⟩ := inv.wf.back y rm hy
    rw [back] at back'
    cases back'
    have ne : x ≠ p := by
      rintro rfl
      rw [(inv.dead new).1] at hx
      cases hx
    refine Linked.congr (fun z owner => ?_) (w.linked y rm x hy back (by simp))
    rw [active, Function.update_noteq]
    rintro rfl
    rcases owner with owner | owner <;> simp [Watcher.owner, ne, Ne.symm ne] at owner
  attached _ _ _ e := by cases e

/-- A teardown ends the session of `p`, the one the CONNECT branch paired included. -/
theorem Waiting.teardown {r : Option Ptr} (w : Waiting u fresh) (inv : Inv u) (hp : u.servers p = some sv)
    (hr : sv.remote = r) (gone : fresh = none ∨ fresh = r) (h : u.teardown r (some p) = .ok s') : Waiting s' none := by
  subst hr
  rw [teardown_ok inv hp] at h
  cases h
  refine ((Steady.remove _).waiting (remove_wf inv.wf (session_closed inv.wf hp)) w).settle_of fun y e => ?_
  rcases gone with g | g <;> rw [g] at e
  · cases e
  · simp [Server.session, e]

theorem Waiting.teardown_remote {r : Option Ptr} (w : Waiting u fresh) (inv : Inv u) (hq : u.remotes q = some rm)
    (hr : rm.server = r) (gone : fresh = none ∨ fresh = some q) (h : u.teardown (some q) r = .ok s') :
    Waiting s' none := by
  obtain ⟨p, sv, back, hp, paired⟩ := inv.wf.back q rm hq
  rw [← hr, back] at h
  exact w.teardown inv hp paired (paired ▸ gone) h

theorem State.start_frame {w x : Watcher} (h : x.owner ≠ w.owner) : (s.start w).active x = s.active x :=
  Function.update_noteq (fun e => h (congrArg Watcher.owner e)) _ _

theorem State.stop_frame {w x : Watcher} (h : x.owner ≠ w.owner) : (s.stop w).active x = s.active x :=
  Function.update_noteq (fun e => h (congrArg Watcher.owner e)) _ _

/-- `ev_timer_again` on a started timer with a nonzero repeat changes nothing. -/
theorem State.timerAgain_started {w : Watcher} {period : Int} (nonzero : period ≠ 0) (started : s.active w = true) :
    s.timerAgain w period = s := by
  rw [State.timerAgain, if_pos nonzero]
  cases s
  simp only [State.start, State.mk.injEq, and_true, true_and]
  exact Function.update_eq_self_iff.2 started.symm

/-- One direction of a connected session changes sides: the read of one end stops and the write
of the other starts, or back. -/
theorem Waiting.swap {a b : Watcher} (w : Waiting u none) (inv : Inv u) (hq : u.remotes q = some rm)
    (back : rm.server = some p) (connected : rm.connected = true)
    (pair : a = .serverRecv p ∧ b = .remoteSend q ∨ a = .remoteSend q ∧ b = .serverRecv p ∨
      a = .remoteRecv q ∧ b = .serverSend p ∨ a = .serverSend p ∧ b = .remoteRecv q) :
    Waiting ((u.stop a).start b) none := by
  have linked : Linked u p q true := connected ▸ w.linked q rm p hq back (by simp)
  simp only [Linked] at linked
  have remotes : ∀ y, ((u.stop a).start b).remotes y = if y = q then some rm else u.remotes y := fun y => by
    split_ifs with e
    · subst e; exact hq
    · rfl
  rcases pair with ⟨rfl, rfl⟩ | ⟨rfl, rfl⟩ | ⟨rfl, rfl⟩ | ⟨rfl, rfl⟩ <;>
    refine w.retune inv hq back (fun x sv h => ⟨sv, h, rfl⟩) remotes back (fun x hp hq' => ?_) ?_ (.inl rfl)
  all_goals first
    | rw [State.start_frame (by exact hq'), State.stop_frame (by exact hp)]
    | rw [State.start_frame (by exact hp), State.stop_frame (by exact hq')]
    | simp [connected, Linked, Function.update_apply, linked]

/-- The upstream direction of a connected session changes sides as `remote->buf` gets a new
window: the read of the client stops and the write upstream starts, or back. -/
theorem Waiting.turnUp {i l : Int} {a b : Watcher} (w : Waiting u none) (inv : Inv u) (hq : u.remotes q = some rm)
    (back : rm.server = some p) (connected : rm.connected = true)
    (pair : a = .serverRecv p ∧ b = .remoteSend q ∨ a = .remoteSend q ∧ b = .serverRecv p) :
    Waiting (((u.setRemote q { rm with bufIdx := i, bufLen := l }).stop a).start b) none := by
  have e : Edit u (u.setRemote q { rm with bufIdx := i, bufLen := l }) := Edit.setRemote hq (by rfl)
  exact ((Steady.setRemote hq (by rfl) (by rfl)).waiting (e.inv inv).wf w).swap (e.inv inv)
    (show _ = some { rm with bufIdx := i, bufLen := l } by simp) back connected (pair.imp id .inl)

/-- The downstream direction changes sides as `server->buf` gets a new window. -/
theorem Waiting.turnDown {i l : Int} {a b : Watcher} (w : Waiting u none) (inv : Inv u) (hp : u.servers p = some sv)
    (hq : u.remotes q = some rm) (back : rm.server = some p) (connected : rm.connected = true)
    (pair : a = .remoteRecv q ∧ b = .serverSend p ∨ a = .serverSend p ∧ b = .remoteRecv q) :
    Waiting (((u.setServer p { sv with bufLen := l, bufIdx := i }).stop a).start b) none := by
  have e : Edit u (u.setServer p { sv with bufLen := l, bufIdx := i }) := Edit.setServer hp (by rfl)
  exact ((Steady.setServer hp (by rfl)).waiting (e.inv inv).wf w).swap (e.inv inv) hq back connected
    (.inr (.inr pair))

section Relay

variable (cipher : Cipher σ) (cfg : Config) {io : Io}

/-- The tail of stage 5 on a remote whose session is connected, or which the CONNECT branch has
just paired: with fast open off, an unconnected remote connects under its connect timer, and a
window the upstream does not take whole stops the read of the client. -/
theorem sendUp_waiting {r : Int} (w : Waiting v fresh) (inv : Inv v) (closed : v.fastOpen = false)
    (hq : v.remotes q = some rm) (back : rm.server = some p) (reading : v.active (.serverRecv p) = true)
    (settled : fresh = none ∨ fresh = some q) (h : sendUp p q io r v = .ok s') : Waiting s' none := by
  obtain ⟨rm', hq', h⟩ := bind_eq_ok.1 h
  obtain rfl : rm = rm' := Option.some.inj (hq.symm.trans (State.remote?_eq_ok.1 hq'))
  split at h
  · -- not connected: `connect` and wait for the write event
    rename_i unconnected
    have conn : rm.connected = false := by simpa using unconnected
    dsimp only at h
    rw [if_pos (by simp [closed])] at h
    obtain rfl := pure_eq_ok.1 h
    have pending : fresh = some q := by
      rcases settled with rfl | rfl
      · have linked := w.linked q rm p hq back (by simp)
        rw [conn] at linked
        rw [linked.1] at reading
        cases reading
      · rfl
    obtain ⟨-, -, writing, quiet⟩ := w.attached q rm p pending hq back
    refine w.retune inv hq back (fun x sv h => ⟨sv, h, rfl⟩) (fun y => by simp [Function.update_apply])
      (show ({ rm with bufIdx := 0, bufLen := r } : Remote).server = some p from back) (fun x hp hq => ?_) ?_ settled
    · rw [State.start_frame (w := .connectTimer q) hq, State.start_frame (w := .remoteSend q) hq,
        State.stop_frame (w := .serverRecv p) hp]
      rfl
    · simp [Linked, Function.update_apply, conn, writing, quiet (.remoteRecv q) rfl, quiet (.idleTimer q) rfl]
  · -- connected: send the window
    rename_i isConnected
    have connected : rm.connected = true := by simpa using isConnected
    obtain rfl : fresh = none := by
      rcases settled with e | e
      · exact e
      · exact absurd (w.attached q rm p e hq back).1 (by simp [connected])
    obtain ⟨B, -, h⟩ := bind_eq_ok.1 h
    obtain ⟨sr, sent, h⟩ := bind_eq_ok.1 h
    have after : ∀ {x u}, v.send rm.fd .relay B 0 r io.send = .ok (x, u) →
        Inv u ∧ Waiting u none ∧ u.remotes q = some rm := fun sent =>
      have inv₁ := (Edit.send (inv.remote_fd_lt hq) sent).inv inv
      ⟨inv₁, (Steady.send sent).waiting inv₁.wf w, by rw [State.send_remotes sent]; exact hq⟩
    split at h
    · obtain ⟨inv₁, w₁, hq₁⟩ := after sent
      obtain rfl := pure_eq_ok.1 h
      exact w₁.turnUp inv₁ hq₁ back connected (.inl ⟨rfl, rfl⟩)
    · obtain ⟨inv₁, w₁, hq₁⟩ := after sent
      exact w₁.teardown_remote inv₁ hq₁ back (.inl rfl) h
    · obtain ⟨inv₁, w₁, hq₁⟩ := after sent
      split at h <;> obtain rfl := pure_eq_ok.1 h
      · exact w₁.turnUp inv₁ hq₁ back connected (.inl ⟨rfl, rfl⟩)
      · exact w₁

/-- Stage 5: the client's data goes upstream, through `ss_encrypt` unless direct. -/
theorem relayUp_waiting {remote : Option Ptr} {r : Int} (w : Waiting s fresh) (inv : Inv s)
    (closed : s.fastOpen = false) (hp : s.servers p = some sv) (hl : sv.remote = remote)
    (reading : s.active (.serverRecv p) = true) (settled : fresh = none ∨ fresh = remote)
    (h : relayUp cipher p io remote r s = .ok s') : Waiting s' none := by
  cases remote with
  | none => exact w.teardown inv hp hl settled h
  | some q =>
    obtain ⟨sv', hp', h⟩ := bind_eq_ok.1 h
    obtain rfl := Option.some.inj (hp.symm.trans (State.server?_eq_ok.1 hp'))
    obtain ⟨rm, hq, h⟩ := bind_eq_ok.1 h
    replace hq := State.remote?_eq_ok.1 hq
    obtain ⟨rm', hq', back⟩ := inv.wf.pair p sv q hp hl
    obtain rfl := Option.some.inj (hq.symm.trans hq')
    have lt := inv.remote_fd_lt hq
    split at h
    · obtain ⟨b, hb, h⟩ := bind_eq_ok.1 h
      replace hb := deref_eq_ok.1 hb
      dsimp only at h
      split at h
      · -- `ss_encrypt` failed: `remote->buf` is freed and the session ends
        obtain ⟨u, freed, h⟩ := bind_eq_ok.1 h
        have hq₂ : u.remotes q = some rm := by simpa [(State.free_eq_ok.1 freed).2] using hq
        have inv₂ := inv.dropRemoteBuf hq hb freed
        exact (((Steady.free freed).trans (Steady.setRemote hq₂ (by rfl) (by rfl))).waiting inv₂.wf w).teardown_remote
          inv₂ (show _ = some { rm with buf := none } by simp) back settled h
      · next wire ctx encrypted =>
        have edit : Edit s ((s.setServer p { sv with eCtx := ctx }).setRemote q { rm with buf := some (b.load wire) }) :=
          (Edit.setServer hp (by simp [Server.shape, Server.blocks, ssEncrypt_ctx cipher encrypted])).trans
            (Edit.setRemote (by simpa using hq) (by simp [Remote.shape, Remote.blocks, hb]))
        have steady : Steady s (((s.setServer p { sv with eCtx := ctx }).setRemote q
            { rm with buf := some (b.load wire) }).emit (.hand rm.fd (b.slice 0 r.toNat) wire)) :=
          ((Steady.setServer hp (by rfl)).trans (Steady.setRemote (by simpa using hq) (by rfl) (by rfl))).trans
            (Steady.emit _)
        have inv₁ := (edit.thenEmit (e := .hand rm.fd (b.slice 0 r.toNat) wire) lt).inv inv
        exact sendUp_waiting (steady.waiting inv₁.wf w) inv₁ closed
          (show _ = some { rm with buf := some (b.load wire) } by simp) back reading settled h
    · exact sendUp_waiting ((Steady.emit _).waiting ((Edit.emit (e := .hand rm.fd _ _) lt).inv inv).wf w)
        ((Edit.emit (e := .hand rm.fd _ _) lt).inv inv) closed hq back reading settled h

/-- The tail of `remote_recv_cb`: what the client does not take whole stops the read of the
upstream. -/
theorem deliver_waiting {r : Int} (w : Waiting s none) (inv : Inv s) (hp : s.servers p = some sv)
    (paired : sv.remote = some q) (hq : s.remotes q = some rm) (connected : rm.connected = true)
    (h : deliver p q io r s = .ok s') : Waiting s' none := by
  obtain ⟨rm', hq', back⟩ := inv.wf.pair p sv q hp paired
  obtain rfl := Option.some.inj (hq.symm.trans hq')
  obtain ⟨sv₁, hp₁, h⟩ := bind_eq_ok.1 h
  obtain rfl := Option.some.inj (hp.symm.trans (State.server?_eq_ok.1 hp₁))
  obtain ⟨b, -, h⟩ := bind_eq_ok.1 h
  obtain ⟨sr, sent, h⟩ := bind_eq_ok.1 h
  have after : ∀ {x u}, s.send sv.fd .relay b 0 r io.send = .ok (x, u) →
      Inv u ∧ Waiting u none ∧ u.servers p = some sv ∧ u.remotes q = some rm := fun sent =>
    have inv₁ := (Edit.send (inv.server_fd_lt hp) sent).inv inv
    ⟨inv₁, (Steady.send sent).waiting inv₁.wf w, by rw [State.send_servers sent]; exact hp,
      by rw [State.send_remotes sent]; exact hq⟩
  split at h
  · obtain ⟨inv₁, w₁, hp₁, hq₁⟩ := after sent
    obtain rfl := pure_eq_ok.1 h
    exact w₁.turnDown inv₁ hp₁ hq₁ back connected (.inl ⟨rfl, rfl⟩)
  · obtain ⟨inv₁, w₁, hp₁, -⟩ := after sent
    exact w₁.teardown inv₁ hp₁ paired (.inl rfl) h
  · obtain ⟨inv₁, w₁, hp₁, hq₁⟩ := after sent
    split at h <;> obtain rfl := pure_eq_ok.1 h
    · exact w₁.turnDown inv₁ hp₁ hq₁ back connected (.inl ⟨rfl, rfl⟩)
    · exact w₁

/-- The write watcher of the client fires only in a connected session. -/
theorem Waiting.writing_connected (w : Waiting s none) (hq : s.remotes q = some rm) (back : rm.server = some p)
    (writing : s.active (.serverSend p) = true) : rm.connected = true := by
  cases c : rm.connected
  · have linked := w.linked q rm p hq back (by simp)
    rw [c] at linked
    rw [linked.2.1] at writing
    cases writing
  · rfl

theorem serverSendCb_waiting (w : Waiting s none) (inv : Inv s) (writing : s.active (.serverSend p) = true)
    (h : serverSendCb p io s = .ok s') : Waiting s' none := by
  obtain ⟨sv, hp, h⟩ := bind_eq_ok.1 h
  replace hp := State.server?_eq_ok.1 hp
  split at h
  · exact w.teardown inv hp rfl (.inl rfl) h
  obtain ⟨b, -, h⟩ := bind_eq_ok.1 h
  obtain ⟨sr, sent, h⟩ := bind_eq_ok.1 h
  have after : ∀ {x u}, s.send sv.fd .relay b sv.bufIdx sv.bufLen io.send = .ok (x, u) →
      Inv u ∧ Waiting u none ∧ u.servers p = some sv ∧ u.remotes = s.remotes := fun sent =>
    have inv₁ := (Edit.send (inv.server_fd_lt hp) sent).inv inv
    ⟨inv₁, (Steady.send sent).waiting inv₁.wf w, by rw [State.send_servers sent]; exact hp, State.send_remotes sent⟩
  split at h
  · obtain ⟨inv₁, w₁, hp₁, -⟩ := after sent
    split at h
    · exact w₁.teardown inv₁ hp₁ rfl (.inl rfl) h
    · obtain rfl := pure_eq_ok.1 h
      exact w₁
  · obtain ⟨inv₁, w₁, hp₁, remotes⟩ := after sent
    split at h
    · obtain rfl := pure_eq_ok.1 h
      exact (Steady.setServer hp₁ (by rfl)).waiting ((Edit.setServer hp₁ (by rfl)).inv inv₁).wf w₁
    · -- the whole residual went: the upstream is read again
      obtain ⟨q, paired, h⟩ := bind_eq_ok.1 h
      obtain ⟨rm, -, h⟩ := bind_eq_ok.1 h
      obtain rfl := pure_eq_ok.1 h
      obtain ⟨rm, hq, back⟩ := inv.wf.pair p sv q hp (deref_eq_ok.1 paired)
      exact w₁.turnDown inv₁ hp₁ (remotes ▸ hq) back (w.writing_connected hq back writing) (.inr ⟨rfl, rfl⟩)

theorem remoteRecvCb_waiting (w : Waiting s none) (inv : Inv s) (period : idleRepeat cfg ≠ 0)
    (listening : s.active (.remoteRecv q) = true) (h : remoteRecvCb cipher cfg q io s = .ok s') : Waiting s' none := by
  obtain ⟨rm, hq, h⟩ := bind_eq_ok.1 h
  replace hq := State.remote?_eq_ok.1 hq
  obtain ⟨p, sv, back, hp, paired⟩ := inv.wf.back q rm hq
  have linked := w.linked q rm p hq back (by simp)
  -- the upstream is read only once connected, under the idle timer
  have connected : rm.connected = true := by
    cases c : rm.connected
    · rw [c] at linked
      rw [linked.2.2.1] at listening
      cases listening
    · rfl
  rw [connected] at linked
  rw [State.timerAgain_started period linked.2.2.2] at h
  obtain ⟨p', back', h⟩ := bind_eq_ok.1 h
  obtain rfl : p = p' := Option.some.inj (back.symm.trans (deref_eq_ok.1 back'))
  obtain ⟨sv', hp', h⟩ := bind_eq_ok.1 h
  obtain rfl := Option.some.inj (hp.symm.trans (State.server?_eq_ok.1 hp'))
  split at h
  · obtain rfl := pure_eq_ok.1 h
    exact w
  · exact w.teardown inv hp paired (.inl rfl) h
  next bytes _ =>
  by_cases nil : bytes.take bufSize = []
  · simp only [nil, if_true] at h
    exact w.teardown inv hp paired (.inl rfl) h
  simp only [nil, if_false] at h
  obtain ⟨b, hb, h⟩ := bind_eq_ok.1 h
  obtain ⟨b', stored, h⟩ := bind_eq_ok.1 h
  replace hb := deref_eq_ok.1 hb
  have e₂ : Edit s ((s.setServer p { sv with buf := some b' }).emit (.recv rm.fd (bytes.take bufSize))) :=
    (Edit.setServer hp (by simp [Server.shape, Server.blocks, hb, Buf.store_ptr stored])).thenEmit
      (inv.remote_fd_lt hq)
  have w₂ : Waiting ((s.setServer p { sv with buf := some b' }).emit (.recv rm.fd (bytes.take bufSize))) none :=
    ((Steady.setServer hp (by rfl)).trans (Steady.emit _)).waiting (e₂.inv inv).wf w
  have hp₂ : ((s.setServer p { sv with buf := some b' }).emit (.recv rm.fd (bytes.take bufSize))).servers p =
      some { sv with buf := some b' } := by simp
  split at h
  · split at h
    · -- `ss_decrypt` failed: `server->buf` is freed and the session ends
      obtain ⟨u, freed, h⟩ := bind_eq_ok.1 h
      have inv₃ := (e₂.inv inv).dropServerBuf hp₂ rfl freed
      have hp₃ : u.servers p = some { sv with buf := some b' } := by
        rw [(State.free_eq_ok.1 freed).2]; exact hp₂
      exact (((Steady.free freed).trans (Steady.setServer hp₃ (by rfl))).waiting inv₃.wf w₂).teardown inv₃
        (show _ = some { sv with buf := none } by simp) paired (.inl rfl) h
    · next plain ctx decrypted =>
      have e₃ : Edit s ((((s.setServer p { sv with buf := some b' }).emit (.recv rm.fd (bytes.take bufSize))).setServer p
          { sv with buf := some (b'.load plain), dCtx := ctx }).emit (.hand sv.fd (bytes.take bufSize) plain)) :=
        (e₂.trans (Edit.setServer hp₂
          (by simp [Server.shape, Server.blocks, hb, Buf.store_ptr stored, ssDecrypt_ctx cipher decrypted]))).thenEmit
            (inv.server_fd_lt hp)
      exact deliver_waiting ((((Steady.setServer hp₂ (by rfl))).trans (Steady.emit _)).waiting (e₃.inv inv).wf w₂)
        (e₃.inv inv) (show _ = some { sv with buf := some (b'.load plain), dCtx := ctx } by simp) paired hq connected h
  · have e₃ := e₂.thenEmit (e := .hand sv.fd (bytes.take bufSize) (bytes.take bufSize)) (inv.server_fd_lt hp)
    exact deliver_waiting ((Steady.emit _).waiting (e₃.inv inv).wf w₂) (e₃.inv inv) hp₂ paired hq connected h

/-- The flush of `remote->buf` upstream: once it is empty the client is read again. -/
theorem flushUp_waiting {server : Option Ptr} (w : Waiting s none) (inv : Inv s) (hq : s.remotes q = some rm)
    (back : rm.server = server) (connected : rm.connected = true) (h : flushUp q server io s = .ok s') :
    Waiting s' none := by
  subst back
  obtain ⟨rm', hq', h⟩ := bind_eq_ok.1 h
  obtain rfl : rm = rm' := Option.some.inj (hq.symm.trans (State.remote?_eq_ok.1 hq'))
  split at h
  · exact w.teardown_remote inv hq rfl (.inl rfl) h
  obtain ⟨p, sv, back, hp, paired⟩ := inv.wf.back q rm hq
  obtain ⟨b, -, h⟩ := bind_eq_ok.1 h
  obtain ⟨sr, sent, h⟩ := bind_eq_ok.1 h
  have after : ∀ {x u}, s.send rm.fd .relay b rm.bufIdx rm.bufLen io.send = .ok (x, u) →
      Inv u ∧ Waiting u none ∧ u.remotes q = some rm := fun sent =>
    have inv₁ := (Edit.send (inv.remote_fd_lt hq) sent).inv inv
    ⟨inv₁, (Steady.send sent).waiting inv₁.wf w, by rw [State.send_remotes sent]; exact hq⟩
  split at h
  · obtain ⟨inv₁, w₁, hq₁⟩ := after sent
    split at h
    · exact w₁.teardown_remote inv₁ hq₁ rfl (.inl rfl) h
    · obtain rfl := pure_eq_ok.1 h
      exact w₁
  · obtain ⟨inv₁, w₁, hq₁⟩ := after sent
    split at h
    · obtain rfl := pure_eq_ok.1 h
      exact (Steady.setRemote hq₁ (by rfl) (by rfl)).waiting ((Edit.setRemote hq₁ (by rfl)).inv inv₁).wf w₁
    · -- the whole window went: the client is read again
      obtain ⟨x, hx, h⟩ := bind_eq_ok.1 h
      obtain ⟨sv', -, h⟩ := bind_eq_ok.1 h
      obtain rfl := pure_eq_ok.1 h
      obtain rfl : p = x := Option.some.inj (back.symm.trans (deref_eq_ok.1 hx))
      exact w₁.turnUp inv₁ hq₁ back connected (.inr ⟨rfl, rfl⟩)

theorem remoteSendCb_waiting (w : Waiting s none) (inv : Inv s) (h : remoteSendCb q io s = .ok s') :
    Waiting s' none := by
  obtain ⟨rm, hq, h⟩ := bind_eq_ok.1 h
  replace hq := State.remote?_eq_ok.1 hq
  obtain ⟨p, sv, back, hp, paired⟩ := inv.wf.back q rm hq
  have linked := w.linked q rm p hq back (by simp)
  split at h
  · rename_i unconnected
    rw [show rm.connected = false by simpa using unconnected] at linked
    obtain ⟨reading, writing, -, sending, -, -⟩ := linked
    dsimp only at h
    split at h
    · -- the connect completed: the idle timer and the read of the upstream start
      have e : Edit s ((((s.setRemote q { rm with connected := true }).stop (.connectTimer q)).start
          (.idleTimer q)).start (.remoteRecv q)) :=
        (((Edit.setRemote hq (by rfl)).trans (Edit.stop _)).trans
          (Edit.start (by simp [State.isLive, Watcher.owner]))).trans
            (Edit.start (by simp [State.isLive, Watcher.owner]))
      have w₁ : Waiting ((((s.setRemote q { rm with connected := true }).stop (.connectTimer q)).start
          (.idleTimer q)).start (.remoteRecv q)) none := by
        refine w.retune inv hq back (fun x sv h => ⟨sv, h, rfl⟩) (fun y => by simp [Function.update_apply])
          (show ({ rm with connected := true } : Remote).server = some p from back) (fun x hp' hq' => ?_) ?_ (.inl rfl)
        · rw [State.start_frame (w := .remoteRecv q) hq', State.start_frame (w := .idleTimer q) hq',
            State.stop_frame (w := .connectTimer q) hq']
          rfl
        · simp [Linked, Function.update_apply, reading, writing, sending]
      have hq₁ : ((((s.setRemote q { rm with connected := true }).stop (.connectTimer q)).start
          (.idleTimer q)).start (.remoteRecv q)).remotes q = some { rm with connected := true } := by simp
      split at h
      · -- nothing waits: the client is read
        obtain ⟨x, hx, h⟩ := bind_eq_ok.1 h
        obtain ⟨sv', -, h⟩ := bind_eq_ok.1 h
        obtain rfl := pure_eq_ok.1 h
        obtain rfl : p = x := Option.some.inj (back.symm.trans (deref_eq_ok.1 hx))
        exact w₁.swap (e.inv inv) hq₁ back rfl (.inr (.inl ⟨rfl, rfl⟩))
      · exact flushUp_waiting w₁ (e.inv inv) hq₁ rfl rfl h
    · exact w.teardown_remote inv hq rfl (.inl rfl) h
  · exact flushUp_waiting w inv hq rfl (by simpa using ‹¬(!rm.connected) = true›) h

theorem remoteTimeoutCb_waiting (w : Waiting s none) (inv : Inv s) (h : remoteTimeoutCb q s = .ok s') :
    Waiting s' none := by
  obtain ⟨rm, hq, h⟩ := bind_eq_ok.1 h
  exact w.teardown_remote inv (State.remote?_eq_ok.1 hq) rfl (.inl rfl) h

/-- The connect timer fires: it is stopped and the session torn down. -/
theorem connectTimeout_waiting (w : Waiting s none) (inv : Inv s)
    (h : remoteTimeoutCb q (s.stop (.connectTimer q)) = .ok s') : Waiting s' none := by
  obtain ⟨rm, hq, h⟩ := bind_eq_ok.1 h
  replace hq : s.remotes q = some rm := State.remote?_eq_ok.1 hq
  obtain ⟨p, sv, back, hp, paired⟩ := inv.wf.back q rm hq
  rw [back, ← paired, teardown_ok ((Edit.stop _).inv inv) (show (s.stop (.connectTimer q)).servers p = some sv from hp),
    State.remove_stop (by simp [Server.session, paired, Watcher.owner])] at h
  cases h
  exact (Steady.remove _).waiting (remove_wf inv.wf (session_closed inv.wf hp)) w

end Relay

section Handshake

variable (cipher : Cipher σ) (cfg : Config) {io : Io}

theorem greet_waiting (w : Waiting s fresh) (g : Good s) (hp : s.servers p = some sv) (stage0 : sv.stage = 0)
    (h : greet p io s = .ok s') : Waiting s' fresh := by
  have g' := greet_good g hp stage0 h
  simp only [greet, State.server?_of hp, ok_bind, pure_eq_ok] at h
  subst h
  exact ((Steady.sendBytes _ _).trans (Steady.setServer (by simpa using hp) (by rfl))).waiting g'.inv.wf w

/-- What a pass of the loop leaves: `Waiting`, with the remote of the locals as the one just
paired when the loop goes round. -/
def PassWaits : Pass σ → Prop
  | .done s => Waiting s none
  | .again l s => Waiting s l.remote

theorem reply_waiting {udp : Bool} {addr : List Byte} {l : Locals} {pass : Pass σ} (w : Waiting s l.remote)
    (inv : Inv s) (hp : s.servers p = some sv) (hl : sv.remote = l.remote) (h : reply p io udp addr l s = .ok pass) :
    PassWaits pass := by
  simp only [reply, State.server?_of hp, ok_bind] at h
  obtain ⟨sb, hsb, h⟩ := bind_eq_ok.1 h
  obtain ⟨sb', stored, h⟩ := bind_eq_ok.1 h
  obtain ⟨⟨res, s₁⟩, sent, h⟩ := bind_eq_ok.1 h
  have e : Edit s s₁ :=
    (Edit.setServer hp (by simp [Server.shape, Server.blocks, deref_eq_ok.1 hsb, Buf.store_ptr stored])).trans
      (Edit.send (by exact inv.server_fd_lt hp) sent)
  have w₁ : Waiting s₁ l.remote := ((Steady.setServer hp (by rfl)).trans (Steady.send sent)).waiting (e.inv inv).wf w
  have hp₁ : s₁.servers p = some { sv with buf := some sb' } := by simp [State.send_servers sent]
  split at h
  · obtain ⟨s₂, down, h⟩ := bind_eq_ok.1 h
    obtain rfl := pure_eq_ok.1 h
    exact w₁.teardown (e.inv inv) hp₁ hl (.inr rfl) down
  simp only [pure_bind] at h
  split at h
  · obtain ⟨s₂, down, h⟩ := bind_eq_ok.1 h
    obtain rfl := pure_eq_ok.1 h
    exact w₁.teardown (e.inv inv) hp₁ hl (.inr rfl) down
  · obtain rfl := pure_eq_ok.1 h
    exact w₁

/-- `close_and_free_server` of an unpaired server whose stage was just set. -/
theorem Waiting.closeAndFreeServer_restaged (w : Waiting u none) (inv : Inv u) (hp : u.servers p = some sv)
    (alone : sv.remote = none) (stage : Nat)
    (h : (u.setServer p { sv with stage := stage }).closeAndFreeServer (some p) = .ok s') : Waiting s' none := by
  rw [inv.closeAndFreeServer_restaged hp alone stage] at h
  cases h
  exact (Steady.remove _).waiting (remove_wf inv.wf (session_closed inv.wf hp)) w

/-- The CONNECT branch pairs the server with a remote whose watchers are not started yet. -/
theorem connectRequest_waiting {l : Locals} {b : Buf} {res : Option Locals} (w : Waiting s none) (inv : Inv s)
    (hp : s.servers p = some sv) (alone : sv.remote = none) (hl : l.remote = none)
    (h : connectRequest cfg p io l b s = .ok (res, s')) : Waiting s' (res.bind Locals.remote) := by
  have inv₁ : Inv s.malloc.2 := malloc_inv inv
  have w₁ : Waiting s.malloc.2 none := (Steady.heap _ _).waiting inv₁.wf w
  have hp₁ : s.malloc.2.servers p = some sv := hp
  simp only [connectRequest, bind_eq_ok] at h
  obtain ⟨atyp, -, header?, -, h⟩ := h
  rcases header? with _ | ⟨header, host, service⟩
  · obtain ⟨s'', down, h⟩ := bind_eq_ok.1 h
    simp only [pure_eq_ok, Prod.mk.injEq] at h
    obtain ⟨rfl, rfl⟩ := h
    rw [hl, ← alone] at down
    exact w₁.teardown inv₁ hp₁ rfl (.inl rfl) down
  · simp only [State.server?_of hp₁, ok_bind] at h
    obtain ⟨⟨remote, s₃⟩, hc, h⟩ := bind_eq_ok.1 h
    obtain ⟨_, -, h⟩ := bind_eq_ok.1 h
    rcases connectToRemote_cases cfg hc with ⟨rfl, rfl | rfl⟩ | ⟨rfl, rfl⟩
    · obtain ⟨s'', down, h⟩ := bind_eq_ok.1 h
      simp only [pure_eq_ok, Prod.mk.injEq] at h
      obtain ⟨rfl, rfl⟩ := h
      exact w₁.closeAndFreeServer_restaged inv₁ hp₁ alone 5 down
    · obtain ⟨s'', down, h⟩ := bind_eq_ok.1 h
      simp only [pure_eq_ok, Prod.mk.injEq] at h
      obtain ⟨rfl, rfl⟩ := h
      have w₂ : Waiting { s.malloc.2 with
          heap := Function.update (Function.update s.malloc.2.heap s.malloc.2.next true) s.malloc.2.next false,
          next := s.malloc.2.next + 1 } none := (Steady.heap _ _).waiting (malloc_free_inv inv₁).wf w₁
      exact w₂.closeAndFreeServer_restaged (malloc_free_inv inv₁) hp₁ alone 5 down
    · simp only [State.remote?, State.setRemote_remotes, Function.update_same, ok_bind, deref] at h
      obtain ⟨⟨rb', r'⟩, chunk, h⟩ := bind_eq_ok.1 h
      simp only [State.server?, State.setRemote_servers, State.malloc_snd_servers, State.openFd_snd_servers,
        State.setServer_servers, Function.update_same, ok_bind, pure_eq_ok, Prod.mk.injEq] at h
      obtain ⟨rfl, rfl⟩ := h
      refine @Waiting.attach σ s.malloc.2 _ p (s.malloc.2.next + 2) sv
        { sv with stage := 5, remote := some (s.malloc.2.next + 2) }
        ⟨s.malloc.2.next + 1, some rb', 0, 0, cfg.acl && (atyp == 1 && io.aclIp || atyp == 3 && io.aclDomain), false,
          s.malloc.2.next + 4, s.malloc.2.next + 5, some s.malloc.2.next, some p⟩ w₁ inv₁ hp₁ alone ?_ rfl ?_ rfl rfl
        (by omega) ?_
      all_goals simp [Function.update_apply, Nat.add_assoc]
      · intro x; split_ifs <;> rfl
      · intro y; split_ifs <;> rfl
      · rfl

theorem request_waiting {l : Locals} {pass : Pass σ} (w : Waiting s none) (g : Good s) (hp : s.servers p = some sv)
    (stage1 : sv.stage = 1) (hl : sv.remote = l.remote) (h : request cfg p io l s = .ok pass) : PassWaits pass := by
  simp only [request, State.server?_of hp, ok_bind] at h
  obtain ⟨b, -, h⟩ := bind_eq_ok.1 h
  obtain ⟨cmd, -, h⟩ := bind_eq_ok.1 h
  have alone : sv.remote = none := by
    cases hr : sv.remote with
    | none => rfl
    | some q => simp [(g.inv.wf.stage p sv hp).1 (by simp [hr])] at stage1
  split at h
  · exact reply_waiting (by rw [← hl, alone]; exact w) g.inv hp hl h
  split at h
  · obtain ⟨s₂, down, h⟩ := bind_eq_ok.1 h
    obtain rfl := pure_eq_ok.1 h
    have inv₂ := (Edit.sendBytes (g.inv.server_fd_lt hp) .response [5, 7, 0, 1] io.reply).inv g.inv
    exact ((Steady.sendBytes _ _).waiting inv₂.wf w).teardown inv₂ (by simpa using hp) hl (.inl rfl) down
  · obtain ⟨⟨res, s₂⟩, conn, h⟩ := bind_eq_ok.1 h
    have w₂ := connectRequest_waiting cfg w g.inv hp alone (hl.symm.trans alone) conn
    obtain ⟨g₂, paired⟩ := connectRequest_good cfg g hp alone (hl.symm.trans alone) conn
    cases res with
    | none =>
      obtain rfl := pure_eq_ok.1 h
      exact w₂
    | some l' =>
      obtain ⟨sv', hp', hl', -⟩ := paired l' rfl
      exact reply_waiting w₂ g₂.inv hp' hl' h

/-- The two passes `server_recv_cb` makes, entered while the client is read. -/
theorem twoPasses_waiting {l : Locals} (w : Waiting s none) (g : Good s) (up : Up s) (staged : Staged s)
    (hp : s.servers p = some sv) (hl : sv.remote = l.remote) (reading : s.active (.serverRecv p) = true)
    (h : twoPasses cipher cfg p io l s = .ok s') : Waiting s' none := by
  simp only [twoPasses, State.server?_of hp, ok_bind] at h
  split at h
  · exact relayUp_waiting cipher w g.inv up.closed hp hl reading (.inl rfl) h
  split at h
  · exact greet_waiting w g hp ‹_› h
  have stage1 : sv.stage = 1 := by
    have := staged p sv.stage (State.stageOf_of hp)
    omega
  obtain ⟨pass, hr, h⟩ := bind_eq_ok.1 h
  have ok := request_waiting cfg w g hp stage1 hl hr
  cases pass with
  | done s₁ =>
    obtain rfl := pure_eq_ok.1 h
    exact ok
  | again l₁ s₁ =>
    obtain ⟨g₁, sv₁, hp₁, hl₁⟩ := request_good cfg g hp stage1 hl hr
    -- the client is still read: the remote just paired has no watcher yet
    have reading₁ : s₁.active (.serverRecv p) = true := by
      cases hr₁ : l₁.remote with
      | none => exact (ok.handshake p sv₁ hp₁ (hl₁.trans hr₁)).1
      | some q =>
        obtain ⟨rm, hq, back⟩ := g₁.inv.wf.pair p sv₁ q hp₁ (hl₁.trans hr₁)
        exact (ok.attached q rm p hr₁ hq back).2.1
    exact relayUp_waiting cipher ok g₁.inv (request_up cfg up g hp stage1 hl hr).1.closed hp₁ hl₁ reading₁ (.inr rfl) h

/-- Storing what the client sent touches no watcher. -/
theorem setBuffer_steady {owner : Option Ptr} {b : Buf} (h : setBuffer s p owner b = .ok u) : Steady s u := by
  cases owner with
  | none =>
    obtain ⟨sv, hp, h⟩ := bind_eq_ok.1 h
    obtain rfl := pure_eq_ok.1 h
    exact Steady.setServer (State.server?_eq_ok.1 hp) (by rfl)
  | some q =>
    obtain ⟨rm, hq, h⟩ := bind_eq_ok.1 h
    obtain rfl := pure_eq_ok.1 h
    exact Steady.setRemote (State.remote?_eq_ok.1 hq) (by rfl) (by rfl)

theorem serverRecvCb_waiting (w : Waiting s none) (g : Good s) (up : Up s) (staged : Staged s)
    (reading : s.active (.serverRecv p) = true) (h : serverRecvCb cipher cfg p io s = .ok s') : Waiting s' none := by
  obtain ⟨sv, hp, h⟩ := bind_eq_ok.1 h
  replace hp := State.server?_eq_ok.1 hp
  split at h
  · obtain rfl := pure_eq_ok.1 h
    exact w
  · exact w.teardown g.inv hp rfl (.inl rfl) h
  next bytes _ =>
  by_cases empty : bytes.take bufSize = []
  · simp only [empty, if_true] at h
    exact w.teardown g.inv hp rfl (.inl rfl) h
  simp only [empty, if_false] at h
  obtain ⟨b, hb, h⟩ := bind_eq_ok.1 h
  obtain ⟨b', stored, h⟩ := bind_eq_ok.1 h
  obtain ⟨u, set, h⟩ := bind_eq_ok.1 h
  have c : Calm s (u.emit (.recv sv.fd (bytes.take bufSize))) :=
    (setBuffer_calm g ⟨sv, hp, rfl⟩ hb stored set).thenEmit (e := .recv sv.fd (bytes.take bufSize))
      (g.inv.server_fd_lt hp) silent_recv
  obtain ⟨still, active⟩ := setBuffer_still up g.inv hp reading set
  have staged' : Staged (u.emit (.recv sv.fd (bytes.take bufSize))) :=
    ((setBuffer_keeps set).trans (Keeps.of_eq rfl)).staged staged
  have loop : ∀ l, serverRecvLoop cipher cfg p io 2 l _ = twoPasses cipher cfg p io l _ := fun _ =>
    serverRecvLoop_two cipher cfg 0 staged'
  rw [loop] at h
  obtain ⟨sv', hp', same⟩ := c.edit.server hp
  exact twoPasses_waiting cipher cfg (((setBuffer_steady set).trans (Steady.emit _)).waiting (c.good g).inv.wf w)
    (c.good g) ((still.trans Still.recv).up up) staged' hp' (congrArg (fun x => x.2.1) same)
    (by simpa [active] using reading) h

end Handshake

section Reactor

variable (cipher : Cipher σ) (cfg : Config) {io : Io}

theorem initial_waiting (fastOpen : Bool) : Waiting (initial fastOpen : State σ) none :=
  ⟨fun _ _ h => by simp [initial] at h, fun _ _ _ h => by simp [initial] at h, fun _ _ _ e => by cases e⟩

/-- `new_server` writes only its own record. -/
theorem newServer_servers (fd : Fd) (bytes : Nat → Byte) {x : Ptr} (ne : x ≠ s.next) :
    (newServer cipher cfg s fd bytes).2.servers x = s.servers x := by
  by_cases m : cfg.method = 0 <;> simp [newServer, m, Function.update_noteq ne]

theorem acceptCb_waiting (w : Waiting s none) (inv : Inv s) : Waiting (acceptCb cipher cfg s io) none := by
  unfold acceptCb
  split
  · obtain ⟨hp, remotes, active, -, -⟩ := newServer_frame cipher cfg (s := s.openFd.2) s.openFd.1 io.fresh
    refine w.addServer inv (p := s.next + 1) (fun x ne => ?_) (by simpa using remotes) ?_ (by omega)
    · simpa using newServer_servers cipher cfg (s := s.openFd.2) s.openFd.1 io.fresh (x := x) (by simpa using ne)
    · show Function.update (newServer cipher cfg s.openFd.2 s.openFd.1 io.fresh).2.active
        (.serverRecv (newServer cipher cfg s.openFd.2 s.openFd.1 io.fresh).1) true = _
      rw [hp, active]
      rfl
  · exact w

theorem dispatch_waiting {x : Watcher} (w : Waiting s none) (g : Good s) (up : Up s) (staged : Staged s)
    (period : idleRepeat cfg ≠ 0) (active : s.active x = true) (h : dispatch cipher cfg x io s = .ok s') :
    Waiting s' none := by
  cases x with
  | serverRecv p => exact serverRecvCb_waiting cipher cfg w g up staged active h
  | serverSend p => exact serverSendCb_waiting w g.inv active h
  | remoteRecv q => exact remoteRecvCb_waiting cipher cfg w g.inv period active h
  | remoteSend q => exact remoteSendCb_waiting w g.inv h
  | connectTimer q => exact connectTimeout_waiting w g.inv h
  | idleTimer q =>
    simp only [dispatch, State.timerAgain_started period active] at h
    exact remoteTimeoutCb_waiting w g.inv h

theorem tick_waiting {t : Tick} (w : Waiting s none) (g : Good s) (up : Up s) (staged : Staged s)
    (period : idleRepeat cfg ≠ 0) (h : tick cipher cfg t io s = .ok s') : Waiting s' none := by
  cases t with
  | accept =>
    cases h
    exact acceptCb_waiting cipher cfg w g.inv
  | fire x =>
    simp only [tick] at h
    split at h
    · exact dispatch_waiting cipher cfg w g up staged period ‹_› h
    · cases h
      exact w

theorem reachable_waiting (off : cfg.fastOpen = false) (period : idleRepeat cfg ≠ 0)
    (reach : Reachable cipher cfg s) : Waiting s none := by
  induction reach with
  | init => exact initial_waiting _
  | step reach step ih =>
    cases step with
    | tick t io h =>
      exact tick_waiting cipher cfg ih (reachable_good cipher cfg reach) (reachable_up cipher cfg off reach)
        (reachable_staged cipher cfg reach) period h

end Reactor

/-- The phase the records of server `p`'s session show, with `q` its remote once paired. -/
def Phase.Fits (s : State σ) (sv : Server σ) (q : Ptr) : Phase → Prop
  | .handshake => sv.remote = none
  | .connecting => sv.remote = some q ∧ ∃ rm, s.remotes q = some rm ∧ rm.connected = false
  | .relaying _ _ => sv.remote = some q ∧ ∃ rm, s.remotes q = some rm ∧ rm.connected = true

/-- `Waiting` read as the abstract machine: the started watchers of each live session are
exactly those of a phase its records show. -/
theorem Waiting.phase (w : Waiting s none) (inv : Inv s) (hp : s.servers p = some sv) :
    ∃ (φ : Phase) (q : Ptr), φ.Fits s sv q ∧ ∀ x, x.owner ∈ sv.session p → s.active x = φ.armed p q x := by
  cases hr : sv.remote with
  | none =>
    obtain ⟨reading, writing⟩ := w.handshake p sv hp hr
    refine ⟨.handshake, p, hr, fun x own => ?_⟩
    simp only [Server.session, hr, Option.map_none', Option.toList_none, List.nil_append,
      List.mem_singleton] at own
    cases x <;> simp [Watcher.owner] at own <;> subst own <;> simp [Phase.armed, reading, writing]
  | some q =>
    obtain ⟨rm, hq, back⟩ := inv.wf.pair p sv q hp hr
    have linked := w.linked q rm p hq back (by simp)
    have own : ∀ x : Watcher, x.owner ∈ sv.session p → x = .serverRecv p ∨ x = .serverSend p ∨
        x = .remoteRecv q ∨ x = .remoteSend q ∨ x = .connectTimer q ∨ x = .idleTimer q := by
      intro x own
      simp only [Server.session, hr, Option.map_some', Option.toList_some, List.singleton_append,
        List.mem_cons, List.mem_singleton, List.not_mem_nil, or_false] at own
      cases x <;> simp_all [Watcher.owner]
    cases c : rm.connected
    · rw [c] at linked
      obtain ⟨l₁, l₂, l₃, l₄, l₅, l₆⟩ := linked
      refine ⟨.connecting, q, ⟨hr, rm, hq, c⟩, fun x mem => ?_⟩
      rcases own x mem with rfl | rfl | rfl | rfl | rfl | rfl <;> simp [Phase.armed, l₁, l₂, l₃, l₄, l₅, l₆]
    · rw [c] at linked
      obtain ⟨l₁, l₂, l₃, l₄⟩ := linked
      refine ⟨.relaying (s.active (.remoteSend q)) (s.active (.serverSend p)), q, ⟨hr, rm, hq, c⟩, fun x mem => ?_⟩
      cases hu : s.active (.remoteSend q) <;> cases hd : s.active (.serverSend p) <;> rw [hu] at l₁ <;>
        rw [hd] at l₂ <;> rcases own x mem with rfl | rfl | rfl | rfl | rfl | rfl <;>
          simp [Phase.armed, l₁, l₂, l₃, l₄, hu, hd]

section Reachable

variable (cipher : Cipher σ) (cfg : Config)

/-- With fast open off and a nonzero idle repeat, the watchers started for each live session
in any reachable state are exactly those of one phase its records show: the read of the client
during the handshake; the write watcher and the connect timer of the remote while it connects;
once connected, the idle timer and, in each direction, the read of one end or the write of the
other, never both. So no session is left without a watcher, and every remote is under a timer. -/
theorem session_watchers (off : cfg.fastOpen = false) (period : idleRepeat cfg ≠ 0)
    (reach : Reachable cipher cfg s) (hp : s.servers p = some sv) :
    ∃ (φ : Phase) (q : Ptr), φ.Fits s sv q ∧ ∀ x, x.owner ∈ sv.session p → s.active x = φ.armed p q x :=
  (reachable_waiting cipher cfg off period reach).phase (reachable_good cipher cfg reach).inv hp

end Reachable

/-- After the CONNECT, the upstream takes 4 of the 10 bytes of the first window: the session is
relaying, writing upstream and no longer reading the client. -/
theorem session_watchers_after_short_send :
    ∃ s sv, Reachable Cipher.identity plainCfg s ∧ s.servers 1 = some sv ∧ s.active (.remoteSend 8) = true ∧
      s.active (.serverRecv 1) = false ∧
      ∃ (φ : Phase) (q : Ptr), φ.Fits s sv q ∧ ∀ x, x.owner ∈ sv.session 1 → s.active x = φ.armed 1 q x := by
  obtain ⟨s, reach, live, writing, reading⟩ := exists_of_run Cipher.identity plainCfg [(.accept, {}),
    (.fire (.serverRecv 1), { recv := .data [5, 1, 0], reply := .accept 2 }),
    (.fire (.serverRecv 1), { recv := .data [5, 1, 0, 1, 127, 0, 0, 1, 0, 80, 71, 69, 84], reply := .accept 10 }),
    (.fire (.remoteSend 8), { send := .accept 4 })]
    (fun s => (s.servers 1).isSome = true ∧ s.active (.remoteSend 8) = true ∧ s.active (.serverRecv 1) = false)
    (by decide)
  obtain ⟨sv, hp⟩ := Option.isSome_iff_exists.1 live
  exact ⟨s, sv, reach, hp, writing, reading, session_watchers Cipher.identity plainCfg rfl (by decide) reach hp⟩

end Shadowsocks.Local
