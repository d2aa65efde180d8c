import ShadowsocksLocal.Growth

/-! The return path, upstream to client. `remote_recv_cb` hands each chunk it produces (the
`hand` event on the client's descriptor) to `server->buf`, and `send` and `server_send_cb`
move it to the client. `Down` says that what the client accepted, followed by the window
`server->buf[buf_idx, buf_idx + buf_len)` still unsent, is what was handed, and that the window
is empty whenever the remote may receive into the buffer. `Quiet` is a step that leaves all of
this alone; `Calm` is a quiet edit, and `Good` both invariants. -/
namespace Shadowsocks.Local

variable {σ : Type} {s t u s' : State σ} {p q : Ptr} {sv : Server σ} {rm : Remote} {e : Event}

/-- `server->buf[buf_idx, buf_idx + buf_len)`: handed to the client's direction, not yet sent. -/
def Server.pending (sv : Server σ) : List Byte :=
  match sv.buf with
  | some b => b.slice sv.bufIdx.toNat sv.bufLen.toNat
  | none => []

theorem Server.pending_eq_nil (drained : sv.bufLen = 0) : sv.pending = [] := by
  unfold Server.pending
  split <;> simp [drained, Buf.slice]

namespace State

/-- The bytes the relay `send`s wrote to `fd`. -/
def relayed (s : State σ) (fd : Fd) : List Byte := s.trace.flatMap (Event.relayedOn fd)

/-- The buffers handed to the direction that writes to `fd`. -/
def handed (s : State σ) (fd : Fd) : List Byte := s.trace.flatMap (Event.handedOn fd)

@[simp] theorem emit_relayed (fd : Fd) : (s.emit e).relayed fd = s.relayed fd ++ e.relayedOn fd := by
  simp [relayed]

@[simp] theorem emit_handed (fd : Fd) : (s.emit e).handed fd = s.handed fd ++ e.handedOn fd := by
  simp [handed]

end State

theorem Event.relayedOn_of_ne {fd : Fd} (ne : e.fd ≠ fd) : e.relayedOn fd = [] := by
  unfold Event.relayedOn
  split <;> simp_all [Event.fd]

theorem Event.handedOn_of_ne {fd : Fd} (ne : e.fd ≠ fd) : e.handedOn fd = [] := by
  unfold Event.handedOn
  split <;> simp_all [Event.fd]

/-- The return path of every live session. -/
structure Down (s : State σ) : Prop where
  faithful : ∀ p sv, s.servers p = some sv → s.relayed sv.fd ++ sv.pending = s.handed sv.fd
  drained : ∀ q rm p sv, s.remotes q = some rm → rm.server = some p → s.servers p = some sv →
    (s.active (.remoteRecv q) = true ∨ rm.connected = false) → sv.bufLen = 0
  listening : ∀ q rm, s.remotes q = some rm → s.active (.remoteRecv q) = true → rm.connected = true
  unpaired : ∀ p sv, s.servers p = some sv → sv.remote = none → sv.bufLen = 0

/-- A step that leaves the return path alone: no server's descriptor, pairing or window changes,
no remote's pairing or connection flag, no remote starts receiving, and nothing is relayed or
handed towards a live server's descriptor. -/
structure Quiet (s s' : State σ) : Prop where
  servers : ∀ p sv', s'.servers p = some sv' → ∃ sv, s.servers p = some sv ∧ sv'.fd = sv.fd ∧
    sv'.remote = sv.remote ∧ sv'.bufLen = sv.bufLen ∧ sv'.pending = sv.pending
  remotes : ∀ q rm', s'.remotes q = some rm' → ∃ rm, s.remotes q = some rm ∧ rm'.server = rm.server ∧
    rm'.connected = rm.connected
  listening : ∀ q, s'.active (.remoteRecv q) = true → s.active (.remoteRecv q) = true
  relayed : ∀ p sv', s'.servers p = some sv' → s'.relayed sv'.fd = s.relayed sv'.fd
  handed : ∀ p sv', s'.servers p = some sv' → s'.handed sv'.fd = s.handed sv'.fd

namespace Quiet

theorem refl (s : State σ) : Quiet s s :=
  ⟨fun _ sv h => ⟨sv, h, rfl, rfl, rfl, rfl⟩, fun _ rm h => ⟨rm, h, rfl, rfl⟩, fun _ a => a,
    fun _ _ _ => rfl, fun _ _ _ => rfl⟩

theorem trans (h : Quiet s t) (h' : Quiet t u) : Quiet s u where
  servers p sv'' hp := by
    obtain ⟨sv', hp', fd', r', l', w'⟩ := h'.servers p sv'' hp
    obtain ⟨sv, hp, fd, r, l, w⟩ := h.servers p sv' hp'
    exact ⟨sv, hp, fd'.trans fd, r'.trans r, l'.trans l, w'.trans w⟩
  remotes q rm'' hq := by
    obtain ⟨rm', hq', b', c'⟩ := h'.remotes q rm'' hq
    obtain ⟨rm, hq, b, c⟩ := h.remotes q rm' hq'
    exact ⟨rm, hq, b'.trans b, c'.trans c⟩
  listening q a := h.listening q (h'.listening q a)
  relayed p sv'' hp := by
    obtain ⟨sv', hp', fd', -⟩ := h'.servers p sv'' hp
    rw [h'.relayed p sv'' hp, fd', h.relayed p sv' hp']
  handed p sv'' hp := by
    obtain ⟨sv', hp', fd', -⟩ := h'.servers p sv'' hp
    rw [h'.handed p sv'' hp, fd', h.handed p sv' hp']

theorem down (h : Quiet s s') (down : Down s) : Down s' where
  faithful p sv' hp := by
    obtain ⟨sv, hp₀, fd, -, -, w⟩ := h.servers p sv' hp
    rw [h.relayed p sv' hp, h.handed p sv' hp, w, fd]
    exact down.faithful p sv hp₀
  drained q rm' p sv' hq back hp a := by
    obtain ⟨rm, hq₀, b, c⟩ := h.remotes q rm' hq
    obtain ⟨sv, hp₀, -, -, l, -⟩ := h.servers p sv' hp
    rw [l]
    refine down.drained q rm p sv hq₀ (b ▸ back) hp₀ ?_
    rcases a with a | a
    · exact .inl (h.listening q a)
    · exact .inr (c ▸ a)
  listening q rm' hq a := by
    obtain ⟨rm, hq₀, -, c⟩ := h.remotes q rm' hq
    rw [c]
    exact down.listening q rm hq₀ (h.listening q a)
  unpaired p sv' hp alone := by
    obtain ⟨sv, hp₀, -, r, l, -⟩ := h.servers p sv' hp
    rw [l]
    exact down.unpaired p sv hp₀ (r ▸ alone)

theorem setServer {sv' : Server σ} (hp : s.servers p = some sv) (fd : sv'.fd = sv.fd)
    (remote : sv'.remote = sv.remote) (len : sv'.bufLen = sv.bufLen) (window : sv'.pending = sv.pending) :
    Quiet s (s.setServer p sv') where
  servers x sv'' hx := by
    by_cases e : x = p
    · subst e
      simp only [State.setServer_servers, Function.update_same, Option.some.injEq] at hx
      subst hx
      exact ⟨sv, hp, fd, remote, len, window⟩
    · exact ⟨sv'', by simpa [e] using hx, rfl, rfl, rfl, rfl⟩
  remotes _ rm h := ⟨rm, h, rfl, rfl⟩
  listening _ a := a
  relayed x sv'' hx := rfl
  handed x sv'' hx := rfl

theorem setRemote {rm' : Remote} (hq : s.remotes q = some rm) (server : rm'.server = rm.server)
    (connected : rm'.connected = rm.connected) : Quiet s (s.setRemote q rm') where
  servers _ sv h := ⟨sv, h, rfl, rfl, rfl, rfl⟩
  remotes y rm'' hy := by
    by_cases e : y = q
    · subst e
      simp only [State.setRemote_remotes, Function.update_same, Option.some.injEq] at hy
      subst hy
      exact ⟨rm, hq, server, connected⟩
    · exact ⟨rm'', by simpa [e] using hy, rfl, rfl⟩
  listening _ a := a
  relayed _ _ _ := rfl
  handed _ _ _ := rfl

/-- Whether an event adds to what is relayed or handed towards a live server. -/
theorem emit (silent : ∀ p sv, s.servers p = some sv → e.relayedOn sv.fd = [] ∧ e.handedOn sv.fd = []) :
    Quiet s (s.emit e) where
  servers _ sv h := ⟨sv, h, rfl, rfl, rfl, rfl⟩
  remotes _ rm h := ⟨rm, h, rfl, rfl⟩
  listening _ a := a
  relayed p sv h := by simp [(silent p sv h).1]
  handed p sv h := by simp [(silent p sv h).2]

theorem start {w : Watcher} (notRecv : ∀ q, w ≠ .remoteRecv q) : Quiet s (s.start w) where
  servers _ sv h := ⟨sv, h, rfl, rfl, rfl, rfl⟩
  remotes _ rm h := ⟨rm, h, rfl, rfl⟩
  listening q a := by simpa [Function.update_apply, (notRecv q).symm] using a
  relayed _ _ _ := rfl
  handed _ _ _ := rfl

theorem stop (w : Watcher) : Quiet s (s.stop w) where
  servers _ sv h := ⟨sv, h, rfl, rfl, rfl, rfl⟩
  remotes _ rm h := ⟨rm, h, rfl, rfl⟩
  listening q a := by
    by_cases e : Watcher.remoteRecv q = w
    · subst e; simp at a
    · simpa [Function.update_apply, e] using a
  relayed _ _ _ := rfl
  handed _ _ _ := rfl

/-- A removal of endpoints keeps the others as they were and only closes descriptors. -/
theorem remove (es : List Endpoint) : Quiet s (s.remove es) where
  servers x sv h := by
    simp only [State.remove_servers] at h
    split at h
    · cases h
    · exact ⟨sv, h, rfl, rfl, rfl, rfl⟩
  remotes y rm h := by
    simp only [State.remove_remotes] at h
    split at h
    · cases h
    · exact ⟨rm, h, rfl, rfl⟩
  listening q a := by
    simp only [State.remove_active, Bool.and_eq_true] at a
    exact a.1
  relayed _ _ _ := by
    simp only [State.relayed, State.remove_trace, List.flatMap_append, List.append_right_eq_self]
    simp only [List.flatMap_eq_nil_iff, List.mem_filterMap, Option.map_eq_some']
    rintro _ ⟨_, -, _, -, rfl⟩
    rfl
  handed _ _ _ := by
    simp only [State.handed, State.remove_trace, List.flatMap_append, List.append_right_eq_self]
    simp only [List.flatMap_eq_nil_iff, List.mem_filterMap, Option.map_eq_some']
    rintro _ ⟨_, -, _, -, rfl⟩
    rfl

/-- A step that touches no record, watcher or event: `malloc`, `free`, a flag. -/
theorem same (servers : t.servers = s.servers) (remotes : t.remotes = s.remotes) (active : t.active = s.active)
    (trace : t.trace = s.trace) : Quiet s t where
  servers _ sv h := ⟨sv, servers ▸ h, rfl, rfl, rfl, rfl⟩
  remotes _ rm h := ⟨rm, remotes ▸ h, rfl, rfl⟩
  listening _ a := active ▸ a
  relayed _ _ _ := by simp only [State.relayed, trace]
  handed _ _ _ := by simp only [State.handed, trace]

theorem free {u₂ : State σ} {b : Ptr} (h : u.free b = .ok u₂) : Quiet u u₂ := by
  obtain ⟨-, rfl⟩ := State.free_eq_ok.1 h
  exact same rfl rfl rfl rfl

end Quiet

/-- An event that adds nothing to what is relayed or handed towards a live server. -/
def Silent (s : State σ) (e : Event) : Prop :=
  ∀ p sv, s.servers p = some sv → e.relayedOn sv.fd = [] ∧ e.handedOn sv.fd = []

theorem silent_recv {fd : Fd} {bytes : List Byte} : Silent s (.recv fd bytes) :=
  fun _ _ _ => ⟨rfl, rfl⟩

theorem silent_reply {fd : Fd} {site : Site} {bytes : List Byte} (notRelay : site ≠ .relay) :
    Silent s (.send fd site bytes) := by
  intro _ _ _
  cases site <;> simp_all [Event.relayedOn, Event.handedOn]

/-- Events on a remote's descriptor, which no server shares. -/
theorem Inv.silent_remote (inv : Inv s) (hq : s.remotes q = some rm) (onFd : e.fd = rm.fd) : Silent s e := by
  intro p sv hp
  have apart : e.fd ≠ sv.fd := fun same =>
    inv.owns.fdDistinct (.remote q) (.server p) rm.fd (by simp) (by simp [State.fdOf, hq])
      (by simp [State.fdOf, hp, ← onFd, same])
  exact ⟨Event.relayedOn_of_ne apart, Event.handedOn_of_ne apart⟩

/-- An edit that leaves the return path alone. -/
structure Calm (s s' : State σ) : Prop where
  edit : Edit s s'
  quiet : Quiet s s'

/-- What every reachable state satisfies: the session structure and the return path. -/
structure Good (s : State σ) : Prop where
  inv : Inv s
  down : Down s

namespace Calm

theorem refl (s : State σ) : Calm s s := ⟨Edit.refl s, Quiet.refl s⟩

theorem trans (h : Calm s t) (h' : Calm t u) : Calm s u := ⟨h.edit.trans h'.edit, h.quiet.trans h'.quiet⟩

theorem good (c : Calm s s') (g : Good s) : Good s' := ⟨c.edit.inv g.inv, c.quiet.down g.down⟩

theorem setServer {sv' : Server σ} (hp : s.servers p = some sv) (same : sv'.shape p = sv.shape p)
    (len : sv'.bufLen = sv.bufLen) (window : sv'.pending = sv.pending) : Calm s (s.setServer p sv') :=
  ⟨Edit.setServer hp same, Quiet.setServer hp (congrArg (·.1) same) (congrArg (·.2.1) same) len window⟩

theorem setRemote {rm' : Remote} (hq : s.remotes q = some rm) (same : rm'.shape q = rm.shape q)
    (connected : rm'.connected = rm.connected) : Calm s (s.setRemote q rm') :=
  ⟨Edit.setRemote hq same, Quiet.setRemote hq (congrArg (·.2.1) same) connected⟩

theorem emit (lt : e.fd < s.next) (silent : Silent s e) : Calm s (s.emit e) :=
  ⟨Edit.emit lt, Quiet.emit silent⟩

theorem start {w : Watcher} (live : s.isLive w.owner) (notRecv : ∀ q, w ≠ .remoteRecv q) : Calm s (s.start w) :=
  ⟨Edit.start live, Quiet.start notRecv⟩

theorem stop (w : Watcher) : Calm s (s.stop w) := ⟨Edit.stop w, Quiet.stop w⟩

theorem fastOpen (b : Bool) : Calm s { s with fastOpen := b } := ⟨Edit.fastOpen b, Quiet.same rfl rfl rfl rfl⟩

theorem timerAgain (period : Int) (live : s.isLive (.remote q)) : Calm s (s.timerAgain (.idleTimer q) period) := by
  unfold State.timerAgain
  split
  · exact start live (fun _ => by simp)
  · exact stop _

theorem sendBytes {fd : Fd} {site : Site} (lt : fd < s.next) (silent : ∀ bytes, Silent s (.send fd site bytes))
    (bytes : List Byte) (res : Send) : Calm s (s.sendBytes fd site bytes res).2 := by
  unfold State.sendBytes
  split
  · exact emit lt (silent _)
  · exact refl s

theorem send {fd : Fd} {site : Site} {b : Buf} {idx len : Int} {res : Send} {x : Except Errno Nat}
    (lt : fd < s.next) (silent : ∀ bytes, Silent s (.send fd site bytes))
    (h : s.send fd site b idx len res = .ok (x, s')) : Calm s s' := by
  rw [show s' = _ from congrArg Prod.snd (State.send_eq_ok h).2.2.2]
  exact sendBytes lt silent _ res

/-- An event silent before a calm step is silent after it: the step moves no server's descriptor. -/
theorem silent (c : Calm s u) (silent : Silent s e) : Silent u e := fun x sv' hx => by
  obtain ⟨sv, hx₀, fd, -⟩ := c.quiet.servers x sv' hx
  rw [fd]
  exact silent x sv hx₀

theorem thenEmit (c : Calm s u) (lt : e.fd < s.next) (silent : Silent s e) : Calm s (u.emit e) :=
  c.trans (emit (c.edit.next ▸ lt) (c.silent silent))

/-- Rewriting the buffer of a server whose window is empty. -/
theorem refill {sv' : Server σ} (hp : s.servers p = some sv) (same : sv'.shape p = sv.shape p)
    (len : sv'.bufLen = sv.bufLen) (empty : sv.bufLen = 0) : Calm s (s.setServer p sv') :=
  setServer hp same len (by rw [Server.pending_eq_nil empty, Server.pending_eq_nil (len.trans empty)])

end Calm

theorem Good.malloc (g : Good s) : Good s.malloc.2 :=
  ⟨malloc_inv g.inv, (Quiet.same (s := s) (t := s.malloc.2) rfl rfl rfl rfl).down g.down⟩

/-- A block taken from the counter and given back at once. -/
theorem Good.mallocFree (g : Good s) :
    Good { s with heap := Function.update (Function.update s.heap s.next true) s.next false, next := s.next + 1 } :=
  ⟨malloc_free_inv g.inv, (Quiet.same (s := s)
    (t := { s with heap := Function.update (Function.update s.heap s.next true) s.next false, next := s.next + 1 })
    rfl rfl rfl rfl).down g.down⟩

theorem Good.teardown {r : Option Ptr} (g : Good u) (hp : u.servers p = some sv) (hr : sv.remote = r)
    (h : u.teardown r (some p) = .ok s') : Good s' := by
  subst hr
  rw [teardown_ok g.inv hp] at h
  cases h
  exact ⟨remove_inv g.inv (session_closed g.inv.wf hp), (Quiet.remove _).down g.down⟩

theorem Calm.teardown_good {r : Option Ptr} (g : Good s) (c : Calm s u) (hp : s.servers p = some sv)
    (hr : sv.remote = r) (h : u.teardown r (some p) = .ok s') : Good s' := by
  obtain ⟨sv', hp', same⟩ := c.edit.server hp
  exact (c.good g).teardown hp' ((congrArg (fun x => x.2.1) same).trans hr) h

theorem Calm.teardown_remote_good {r : Option Ptr} (g : Good s) (c : Calm s u) (hq : s.remotes q = some rm)
    (hr : rm.server = r) (h : u.teardown (some q) r = .ok s') : Good s' := by
  obtain ⟨p, sv, back, hp, paired⟩ := g.inv.wf.back q rm hq
  rw [← hr, back] at h
  exact c.teardown_good g hp paired h

/-! ## New endpoints -/

/-- Nothing was relayed or handed towards a descriptor not yet handed out. -/
theorem Fresh.relayed_eq_nil {fd : Fd} (fresh : Fresh s) (past : s.next ≤ fd) : s.relayed fd = [] :=
  List.flatMap_eq_nil_iff.2 fun ev m =>
    Event.relayedOn_of_ne (Nat.ne_of_lt (lt_of_lt_of_le (fresh.trace ev m) past))

theorem Fresh.handed_eq_nil {fd : Fd} (fresh : Fresh s) (past : s.next ≤ fd) : s.handed fd = [] :=
  List.flatMap_eq_nil_iff.2 fun ev m =>
    Event.handedOn_of_ne (Nat.ne_of_lt (lt_of_lt_of_le (fresh.trace ev m) past))

theorem initial_down (fastOpen : Bool) : Down (initial fastOpen : State σ) :=
  ⟨fun _ _ h => by simp [initial] at h, fun _ _ _ _ h => by simp [initial] at h,
    fun _ _ h => by simp [initial] at h, fun _ _ h => by simp [initial] at h⟩

/-- A new unpaired server on a fresh descriptor, with an empty window (`accept_cb`). -/
theorem Down.addServer {t : State σ} (down : Down s) (inv : Inv s)
    (servers : ∀ x, t.servers x = if x = p then some sv else s.servers x) (remotes : t.remotes = s.remotes)
    (listening : ∀ q, t.active (.remoteRecv q) = s.active (.remoteRecv q)) (trace : t.trace = s.trace)
    (fresh : s.next ≤ p) (fdFresh : s.next ≤ sv.fd) (empty : sv.bufLen = 0) : Down t where
  faithful x sv' hx := by
    simp only [State.relayed, State.handed, trace] at *
    rw [servers] at hx
    split at hx
    · cases hx
      rw [Server.pending_eq_nil empty, List.append_nil]
      exact (inv.fresh.relayed_eq_nil fdFresh).trans (inv.fresh.handed_eq_nil fdFresh).symm
    · exact down.faithful x sv' hx
  drained q rm x sv' hq back hx a := by
    rw [remotes] at hq
    rw [listening] at a
    rw [servers] at hx
    split at hx
    · next e =>
      obtain ⟨x', _, back', hx', -⟩ := inv.wf.back q rm hq
      rw [back] at back'
      cases back'
      simp [e, (inv.dead fresh).1] at hx'
    · exact down.drained q rm x sv' hq back hx a
  listening q rm hq a := down.listening q rm (remotes ▸ hq) (listening q ▸ a)
  unpaired x sv' hx alone := by
    rw [servers] at hx
    split at hx
    · cases hx
      exact empty
    · exact down.unpaired x sv' hx alone

/-- A new remote `q` paired with the unpaired server `p` (the CONNECT
branch), which keeps its descriptor and its empty window. -/
theorem Down.attach {t : State σ} {sv' : Server σ} (down : Down s) (inv : Inv s) (hp : s.servers p = some sv)
    (alone : sv.remote = none) (servers : ∀ x, t.servers x = if x = p then some sv' else s.servers x)
    (remotes : ∀ y, t.remotes y = if y = q then some rm else s.remotes y) (active : t.active = s.active)
    (trace : t.trace = s.trace) (fresh : s.next ≤ q) (fd : sv'.fd = sv.fd) (paired : sv'.remote = some q)
    (len : sv'.bufLen = sv.bufLen) (window : sv'.pending = sv.pending) (back : rm.server = some p) :
    Down t where
  faithful x sv'' hx := by
    simp only [State.relayed, State.handed, trace] at *
    rw [servers] at hx
    split at hx
    · cases hx
      rw [fd, window]
      exact down.faithful p sv hp
    · exact down.faithful x sv'' hx
  drained y rm' x sv'' hy hb hx a := by
    rw [active] at a
    rw [remotes] at hy
    split at hy
    · cases hy
      rw [back] at hb
      cases hb
      rw [servers, if_pos rfl] at hx
      cases hx
      rw [len]
      exact down.unpaired p sv hp alone
    · next ne =>
      rw [servers] at hx
      split at hx
      · next e =>
        subst e
        obtain ⟨x', sv₀, back', hx', paired'⟩ := inv.wf.back y rm' hy
        rw [hb] at back'
        cases back'
        rw [hp] at hx'
        cases hx'
        simp [alone] at paired'
      · exact down.drained y rm' x sv'' hy hb hx a
  listening y rm' hy a := by
    rw [active] at a
    rw [remotes] at hy
    split at hy
    · next e =>
      subst e
      have := inv.wf.armed _ a
      simp [Watcher.owner, State.isLive, (inv.dead fresh).2] at this
    · exact down.listening y rm' hy a
  unpaired x sv'' hx alone' := by
    rw [servers] at hx
    split at hx
    · cases hx
      simp [paired] at alone'
    · exact down.unpaired x sv'' hx alone'

/-! ## Steps that move bytes through a window -/

/-- A step that only moves bytes through the window of server `p`, paired with the connected
remote `q`: `H` is handed towards the client, `R` is relayed to it, and the window goes from
`sv.pending` to `sv'.pending`. The remote may only be receiving once the window is empty. -/
theorem Down.window {t : State σ} {R H : List Byte} (down : Down s) (inv : Inv s)
    (hp : s.servers p = some sv) (paired : sv.remote = some q) (hq : s.remotes q = some rm)
    (connected : rm.connected = true) (sv' : Server σ)
    (servers : ∀ x, t.servers x = if x = p then some sv' else s.servers x)
    (remotes : t.remotes = s.remotes) (fd : sv'.fd = sv.fd) (remote : sv'.remote = sv.remote)
    (relayed : ∀ f, t.relayed f = s.relayed f ++ if sv.fd = f then R else [])
    (handed : ∀ f, t.handed f = s.handed f ++ if sv.fd = f then H else [])
    (moved : R ++ sv'.pending = sv.pending ++ H)
    (newly : ∀ y, t.active (.remoteRecv y) = true → s.active (.remoteRecv y) = true ∨ y = q)
    (drainedIf : t.active (.remoteRecv q) = true → sv'.bufLen = 0) : Down t where
  faithful x sv'' hx := by
    rw [servers] at hx
    split at hx
    · next e =>
      subst e
      cases hx
      rw [relayed, handed, fd, if_pos rfl, if_pos rfl, List.append_assoc, moved, ← List.append_assoc,
        down.faithful x sv hp]
    · next ne =>
      have apart : sv.fd ≠ sv''.fd := fun same =>
        inv.owns.fdDistinct (.server p) (.server x) sv.fd (by simpa using Ne.symm ne) (by simp [State.fdOf, hp])
          (by simp [State.fdOf, hx, same])
      rw [relayed, handed, if_neg apart, if_neg apart, List.append_nil, List.append_nil]
      exact down.faithful x sv'' hx
  drained y rm' x sv'' hy back hx a := by
    rw [remotes] at hy
    rw [servers] at hx
    split at hx
    · next e =>
      subst e
      cases hx
      obtain rfl : y = q := Option.some.inj ((inv.paired hy back hp).symm.trans paired)
      obtain rfl : rm' = rm := Option.some.inj (hy.symm.trans hq)
      rcases a with a | a
      · exact drainedIf a
      · simp [connected] at a
    · next ne =>
      refine down.drained y rm' x sv'' hy back hx ?_
      rcases a with a | a
      · rcases newly y a with a | rfl
        · exact .inl a
        · obtain ⟨rm₀, hq₀, back₀⟩ := inv.wf.pair p sv y hp paired
          rw [hy] at hq₀
          cases hq₀
          rw [back] at back₀
          exact absurd (Option.some.inj back₀) ne
      · exact .inr a
  listening y rm' hy a := by
    rw [remotes] at hy
    rcases newly y a with a | rfl
    · exact down.listening y rm' hy a
    · obtain rfl := Option.some.inj (hy.symm.trans hq)
      exact connected
  unpaired x sv'' hx alone := by
    rw [servers] at hx
    split at hx
    · cases hx
      rw [remote, paired] at alone
      cases alone
    · exact down.unpaired x sv'' hx alone

/-- The connect of remote `q` completes (`connected` becomes set) and it may start receiving:
its server's window is still empty. -/
theorem Down.connect {t : State σ} (down : Down s) (hq : s.remotes q = some rm)
    (unconnected : rm.connected = false) (rm' : Remote) (servers : t.servers = s.servers)
    (remotes : t.remotes = Function.update s.remotes q (some rm')) (server : rm'.server = rm.server)
    (nowConnected : rm'.connected = true)
    (newly : ∀ y, t.active (.remoteRecv y) = true → s.active (.remoteRecv y) = true ∨ y = q)
    (trace : t.trace = s.trace) : Down t where
  faithful x sv hx := by
    simp only [State.relayed, State.handed, trace] at *
    exact down.faithful x sv (servers ▸ hx)
  drained y rm'' x sv hy back hx a := by
    rw [servers] at hx
    rw [remotes, Function.update_apply] at hy
    split at hy
    · next e =>
      subst e
      cases hy
      exact down.drained y rm x sv hq (server ▸ back) hx (.inr unconnected)
    · next ne =>
      refine down.drained y rm'' x sv hy back hx ?_
      rcases a with a | a
      · rcases newly y a with a | e
        · exact .inl a
        · exact absurd e ne
      · exact .inr a
  listening y rm'' hy a := by
    rw [remotes, Function.update_apply] at hy
    split at hy
    · cases hy
      exact nowConnected
    · next ne =>
      rcases newly y a with a | e
      · exact down.listening y rm'' hy a
      · exact absurd e ne
  unpaired x sv hx alone := down.unpaired x sv (servers ▸ hx) alone

/-! ## The combined invariant -/

/-- A server with bytes in its window is paired with a connected remote that is not receiving. -/
theorem Good.waiting (g : Good s) (hp : s.servers p = some sv) (busy : sv.bufLen ≠ 0) :
    ∃ q rm, sv.remote = some q ∧ s.remotes q = some rm ∧ rm.server = some p ∧ rm.connected = true ∧
      s.active (.remoteRecv q) = false := by
  cases paired : sv.remote with
  | none => exact absurd (g.down.unpaired p sv hp paired) busy
  | some q =>
    obtain ⟨rm, hq, back⟩ := g.inv.wf.pair p sv q hp paired
    have quiet := mt (g.down.drained q rm p sv hq back hp) busy
    simp only [not_or, Bool.not_eq_true, Bool.not_eq_false] at quiet
    exact ⟨q, rm, rfl, hq, back, quiet.2, quiet.1⟩

/-- What was relayed or handed towards server `p` is forgotten once its session is removed. -/
theorem Quiet.emit_remove {es : List Endpoint} (inv : Inv s) (hp : s.servers p = some sv)
    (gone : .server p ∈ es) (onFd : e.fd = sv.fd) : Quiet s ((s.emit e).remove es) := by
  have q := Quiet.remove (s := s.emit e) es
  have apart : ∀ x sv', ((s.emit e).remove es).servers x = some sv' → e.fd ≠ sv'.fd := by
    intro x sv' hx same
    simp only [State.remove_servers, State.emit_servers] at hx
    split at hx
    · cases hx
    · next kept =>
      exact inv.owns.fdDistinct (.server p) (.server x) sv.fd (by rintro ⟨⟩; exact kept gone)
        (by simp [State.fdOf, hp]) (by simp [State.fdOf, hx, ← same, onFd])
  refine ⟨q.servers, q.remotes, q.listening, fun x sv' hx => ?_, fun x sv' hx => ?_⟩
  · rw [q.relayed x sv' hx, State.emit_relayed, Event.relayedOn_of_ne (apart x sv' hx), List.append_nil]
  · rw [q.handed x sv' hx, State.emit_handed, Event.handedOn_of_ne (apart x sv' hx), List.append_nil]

/-- A teardown of `p`'s session right after an event towards its client. -/
theorem Good.teardown_emit {r : Option Ptr} (g : Good s) (hp : s.servers p = some sv) (hr : sv.remote = r)
    (onFd : e.fd = sv.fd) (h : (s.emit e).teardown r (some p) = .ok s') : Good s' := by
  subst hr
  have inv : Inv (s.emit e) := (Edit.emit (onFd ▸ g.inv.server_fd_lt hp)).inv g.inv
  rw [teardown_ok inv hp] at h
  cases h
  exact ⟨remove_inv inv (session_closed inv.wf hp),
    (Quiet.emit_remove g.inv hp (by simp [Server.session]) onFd).down g.down⟩

/-- `free(server->buf)` of a server with an empty window, before a teardown. -/
theorem Good.dropServerBuf {u₂ : State σ} {b : Buf} (g : Good u) (hp : u.servers p = some sv)
    (hb : sv.buf = some b) (empty : sv.bufLen = 0) (h : u.free b.ptr = .ok u₂) :
    Good (u₂.setServer p { sv with buf := none }) := by
  have hp₂ : u₂.servers p = some sv := by rw [(State.free_eq_ok.1 h).2]; exact hp
  refine ⟨g.inv.dropServerBuf hp hb h,
    ((Quiet.free h).trans (Quiet.setServer hp₂ (by rfl) (by rfl) (by rfl) ?_)).down g.down⟩
  rw [Server.pending_eq_nil empty]
  rfl

/-- `free(remote->buf)`, before a teardown. -/
theorem Good.dropRemoteBuf {u₂ : State σ} {b : Buf} (g : Good u) (hq : u.remotes q = some rm)
    (hb : rm.buf = some b) (h : u.free b.ptr = .ok u₂) : Good (u₂.setRemote q { rm with buf := none }) := by
  have hq₂ : u₂.remotes q = some rm := by rw [(State.free_eq_ok.1 h).2]; exact hq
  exact ⟨g.inv.dropRemoteBuf hq hb h, ((Quiet.free h).trans (Quiet.setRemote hq₂ (by rfl) (by rfl))).down g.down⟩

/-- A new unpaired server with an empty window (`accept_cb`). -/
theorem Good.addServer {sv : Server σ} (g : Good s)
    (servers : ∀ x, t.servers x = if x = p then some sv else s.servers x)
    (remotes : ∀ y, t.remotes y = s.remotes y)
    (heap : ∀ b, t.heap b = true ↔ s.heap b = true ∨ b ∈ sv.blocks p)
    (fds : ∀ fd, t.fds fd = true ↔ s.fds fd = true ∨ fd = sv.fd)
    (active : ∀ w, t.active w = true ↔ s.active w = true ∨ w = .serverRecv p)
    (connections : t.connections = s.connections ++ [p]) (trace : t.trace = s.trace) (grow : s.next ≤ t.next)
    (fresh : ∀ b ∈ sv.blocks p, s.next ≤ b ∧ b < t.next) (nd : (sv.blocks p).Nodup)
    (fdFresh : s.next ≤ sv.fd ∧ sv.fd < t.next) (alone : sv.remote = none) (notRelaying : sv.stage ≠ 5)
    (empty : sv.bufLen = 0) : Good t :=
  ⟨g.inv.addServer servers remotes heap fds active connections trace grow fresh nd fdFresh alone notRelaying,
    g.down.addServer g.inv servers (funext remotes) (fun q => Bool.eq_iff_iff.2 (by simpa using active (.remoteRecv q)))
      trace (fresh p (List.mem_cons_self _ _)).1 fdFresh.1 empty⟩

/-- A new remote `q` paired with the unpaired server `p`, which keeps its descriptor, blocks and
window (the CONNECT branch). -/
theorem Good.attach {sv' : Server σ} (g : Good s) (hp : s.servers p = some sv) (alone : sv.remote = none)
    (servers : ∀ x, t.servers x = if x = p then some sv' else s.servers x)
    (remotes : ∀ y, t.remotes y = if y = q then some rm else s.remotes y)
    (heap : ∀ b, t.heap b = true ↔ s.heap b = true ∨ b ∈ rm.blocks q)
    (fds : ∀ fd, t.fds fd = true ↔ s.fds fd = true ∨ fd = rm.fd)
    (active : ∀ w, t.active w = s.active w) (connections : t.connections = s.connections)
    (trace : t.trace = s.trace) (grow : s.next ≤ t.next)
    (fresh : ∀ b ∈ rm.blocks q, s.next ≤ b ∧ b < t.next) (nd : (rm.blocks q).Nodup)
    (fdFresh : s.next ≤ rm.fd ∧ rm.fd < t.next) (back : rm.server = some p)
    (same : sv'.blocks p = sv.blocks p) (sameFd : sv'.fd = sv.fd) (paired : sv'.remote = some q)
    (relaying : sv'.stage = 5) (len : sv'.bufLen = sv.bufLen) (window : sv'.pending = sv.pending) : Good t :=
  ⟨g.inv.attach hp alone servers remotes heap fds active connections trace grow fresh nd fdFresh back same sameFd
      paired relaying,
    g.down.attach g.inv hp alone servers remotes (funext active) trace (fresh q (List.mem_cons_self _ _)).1 sameFd
      paired len window back⟩

end Shadowsocks.Local
