import ShadowsocksLocal.Safety

/-! The forward path, client to upstream, with fast open off. Stage 5 of `server_recv_cb`
hands each chunk it produces (the `hand` event on the remote's descriptor) to `remote->buf`,
and `send` and `remote_send_cb` move it upstream. `Up` says that what the upstream accepted,
followed by the window `remote->buf[buf_idx, buf_idx + buf_len)` still unsent, is what was
handed, and that the window is empty whenever the client may be read into the buffer again.
`Still` is a step that leaves all of this alone. The fast-open `sendto` breaks the second
half, so `Up` holds of the runs of a listener with fast open off. -/
namespace Shadowsocks.Local

variable {σ : Type} {s t u v s' : State σ} {p q : Ptr} {sv : Server σ} {rm : Remote} {e : Event}

/-- `remote->buf[buf_idx, buf_idx + buf_len)`: handed upstream, not yet accepted. -/
def Remote.pending (rm : Remote) : List Byte :=
  match rm.buf with
  | some b => b.slice rm.bufIdx.toNat rm.bufLen.toNat
  | none => []

theorem Remote.pending_eq_nil (drained : rm.bufLen = 0) : rm.pending = [] := by
  unfold Remote.pending
  split <;> simp [drained, Buf.slice]

/-- The forward path of every live session. -/
structure Up (s : State σ) : Prop where
  faithful : ∀ q rm, s.remotes q = some rm → s.relayed rm.fd ++ rm.pending = s.handed rm.fd
  drained : ∀ q rm p, s.remotes q = some rm → rm.server = some p → s.active (.serverRecv p) = true →
    rm.bufLen = 0
  closed : s.fastOpen = false

/-- A step that leaves the forward path alone: no remote's descriptor, pairing or window
changes, no client starts being read, and nothing is relayed or handed towards a live remote's
descriptor. -/
structure Still (s s' : State σ) : Prop where
  remotes : ∀ q rm', s'.remotes q = some rm' → ∃ rm, s.remotes q = some rm ∧ rm'.fd = rm.fd ∧
    rm'.server = rm.server ∧ rm'.bufLen = rm.bufLen ∧ rm'.pending = rm.pending
  reading : ∀ p, s'.active (.serverRecv p) = true → s.active (.serverRecv p) = true
  relayed : ∀ q rm', s'.remotes q = some rm' → s'.relayed rm'.fd = s.relayed rm'.fd
  handed : ∀ q rm', s'.remotes q = some rm' → s'.handed rm'.fd = s.handed rm'.fd
  fastOpen : s'.fastOpen = s.fastOpen

namespace Still

theorem refl (s : State σ) : Still s s :=
  ⟨fun _ rm h => ⟨rm, h, rfl, rfl, rfl, rfl⟩, fun _ a => a, fun _ _ _ => rfl, fun _ _ _ => rfl, rfl⟩

theorem trans (h : Still s t) (h' : Still t u) : Still s u where
  remotes q rm'' hq := by
    obtain ⟨rm', hq', fd', b', l', w'⟩ := h'.remotes q rm'' hq
    obtain ⟨rm, hq, fd, b, l, w⟩ := h.remotes q rm' hq'
    exact ⟨rm, hq, fd'.trans fd, b'.trans b, l'.trans l, w'.trans w⟩
  reading p a := h.reading p (h'.reading p a)
  relayed q rm'' hq := by
    obtain ⟨rm', hq', fd', -⟩ := h'.remotes q rm'' hq
    rw [h'.relayed q rm'' hq, fd', h.relayed q rm' hq']
  handed q rm'' hq := by
    obtain ⟨rm', hq', fd', -⟩ := h'.remotes q rm'' hq
    rw [h'.handed q rm'' hq, fd', h.handed q rm' hq']
  fastOpen := h'.fastOpen.trans h.fastOpen

theorem up (h : Still s s') (up : Up s) : Up s' where
  faithful q rm' hq := by
    obtain ⟨rm, hq₀, fd, -, -, w⟩ := h.remotes q rm' hq
    rw [h.relayed q rm' hq, h.handed q rm' hq, w, fd]
    exact up.faithful q rm hq₀
  drained q rm' p hq back a := by
    obtain ⟨rm, hq₀, -, b, l, -⟩ := h.remotes q rm' hq
    rw [l]
    exact up.drained q rm p hq₀ (b ▸ back) (h.reading p a)
  closed := h.fastOpen.trans up.closed

/-- Any edit of a server record. -/
theorem setServer (p : Ptr) (sv : Server σ) : Still s (s.setServer p sv) :=
  ⟨fun _ rm h => ⟨rm, h, rfl, rfl, rfl, rfl⟩, fun _ a => a, fun _ _ _ => rfl, fun _ _ _ => rfl, rfl⟩

theorem setRemote {rm' : Remote} (hq : s.remotes q = some rm) (fd : rm'.fd = rm.fd)
    (server : rm'.server = rm.server) (len : rm'.bufLen = rm.bufLen) (window : rm'.pending = rm.pending) :
    Still s (s.setRemote q rm') where
  remotes y rm'' hy := by
    by_cases e : y = q
    · subst e
      simp only [State.setRemote_remotes, Function.update_same, Option.some.injEq] at hy
      subst hy
      exact ⟨rm, hq, fd, server, len, window⟩
    · exact ⟨rm'', by simpa [e] using hy, rfl, rfl, rfl, rfl⟩
  reading _ a := a
  relayed _ _ _ := rfl
  handed _ _ _ := rfl
  fastOpen := rfl

/-- A remote whose window is empty gets a new buffer or flags. -/
theorem refill {rm' : Remote} (hq : s.remotes q = some rm) (fd : rm'.fd = rm.fd) (server : rm'.server = rm.server)
    (len : rm'.bufLen = rm.bufLen) (empty : rm.bufLen = 0) : Still s (s.setRemote q rm') :=
  setRemote hq fd server len (by rw [Remote.pending_eq_nil empty, Remote.pending_eq_nil (len.trans empty)])

/-- An event that adds nothing to what is relayed or handed towards a live remote. -/
theorem emit (silent : ∀ q rm, s.remotes q = some rm → e.relayedOn rm.fd = [] ∧ e.handedOn rm.fd = []) :
    Still s (s.emit e) where
  remotes _ rm h := ⟨rm, h, rfl, rfl, rfl, rfl⟩
  reading _ a := a
  relayed q rm h := by simp [(silent q rm h).1]
  handed q rm h := by simp [(silent q rm h).2]
  fastOpen := rfl

theorem recv {fd : Fd} {bytes : List Byte} : Still s (s.emit (.recv fd bytes)) :=
  emit fun _ _ _ => ⟨rfl, rfl⟩

theorem start {w : Watcher} (notRead : ∀ p, w ≠ .serverRecv p) : Still s (s.start w) where
  remotes _ rm h := ⟨rm, h, rfl, rfl, rfl, rfl⟩
  reading p a := by simpa [Function.update_apply, (notRead p).symm] using a
  relayed _ _ _ := rfl
  handed _ _ _ := rfl
  fastOpen := rfl

theorem stop (w : Watcher) : Still s (s.stop w) where
  remotes _ rm h := ⟨rm, h, rfl, rfl, rfl, rfl⟩
  reading p a := by
    by_cases e : Watcher.serverRecv p = w
    · subst e; simp at a
    · simpa [Function.update_apply, e] using a
  relayed _ _ _ := rfl
  handed _ _ _ := rfl
  fastOpen := rfl

theorem timerAgain (q : Ptr) (period : Int) : Still s (s.timerAgain (.idleTimer q) period) := by
  unfold State.timerAgain
  split
  · exact start (by simp)
  · exact stop _

/-- A removal of endpoints keeps the others as they were and only closes descriptors. -/
theorem remove (es : List Endpoint) : Still s (s.remove es) where
  remotes y rm h := by
    simp only [State.remove_remotes] at h
    split at h
    · cases h
    · exact ⟨rm, h, rfl, rfl, rfl, rfl⟩
  reading p a := by
    simp only [State.remove_active, Bool.and_eq_true] at a
    exact a.1
  relayed _ _ _ := by
    simp only [State.relayed, State.remove_trace, List.flatMap_append, List.append_right_eq_self]
    simp only [List.flatMap_eq_nil_iff, List.mem_filterMap, Option.map_eq_some']
    rintro _ ⟨_, -, _, -, rfl⟩
    rfl
  handed _ _ _ := by
    simp only [State.handed, State.remove_trace, List.flatMap_append, List.append_right_eq_self]
    simp only [List.flatMap_eq_nil_iff, List.mem_filterMap, Option.map_eq_some']
    rintro _ ⟨_, -, _, -, rfl⟩
    rfl
  fastOpen := rfl

/-- A step that touches no remote, watcher or event: `malloc`, `free`. -/
theorem same (remotes : t.remotes = s.remotes) (active : t.active = s.active) (trace : t.trace = s.trace)
    (fastOpen : t.fastOpen = s.fastOpen) : Still s t where
  remotes _ rm h := ⟨rm, remotes ▸ h, rfl, rfl, rfl, rfl⟩
  reading _ a := active ▸ a
  relayed _ _ _ := by simp only [State.relayed, trace]
  handed _ _ _ := by simp only [State.handed, trace]
  fastOpen := fastOpen

/-- `malloc` and `free`: only the heap and the counter move. -/
theorem heap (h : Ptr → Bool) (n : Nat) : Still s { s with heap := h, next := n } :=
  same rfl rfl rfl rfl

theorem free {u₂ : State σ} {b : Ptr} (h : u.free b = .ok u₂) : Still u u₂ := by
  obtain ⟨-, rfl⟩ := State.free_eq_ok.1 h
  exact same rfl rfl rfl rfl

theorem sendBytes {fd : Fd} {site : Site}
    (silent : ∀ bytes q rm, s.remotes q = some rm → (Event.send fd site bytes).relayedOn rm.fd = [])
    (bytes : List Byte) (res : Send) : Still s (s.sendBytes fd site bytes res).2 := by
  unfold State.sendBytes
  split
  · exact emit fun q rm hq => ⟨silent _ q rm hq, rfl⟩
  · exact refl s

theorem send {fd : Fd} {site : Site} {b : Buf} {idx len : Int} {res : Send} {x : Except Errno Nat}
    (silent : ∀ bytes q rm, s.remotes q = some rm → (Event.send fd site bytes).relayedOn rm.fd = [])
    (h : s.send fd site b idx len res = .ok (x, s')) : Still s s' := by
  rw [show s' = _ from congrArg Prod.snd (State.send_eq_ok h).2.2.2]
  exact sendBytes silent _ res

end Still

/-- Events on a server's descriptor, which no remote shares, and sends that do not relay. -/
theorem Inv.quiet_server (inv : Inv s) (hp : s.servers p = some sv) (onFd : e.fd = sv.fd) :
    ∀ q rm, s.remotes q = some rm → e.relayedOn rm.fd = [] ∧ e.handedOn rm.fd = [] := by
  intro q rm hq
  have apart : e.fd ≠ rm.fd := fun same =>
    inv.owns.fdDistinct (.server p) (.remote q) sv.fd (by simp) (by simp [State.fdOf, hp])
      (by simp [State.fdOf, hq, ← onFd, same])
  exact ⟨Event.relayedOn_of_ne apart, Event.handedOn_of_ne apart⟩

/-- A `send` on a server's descriptor relays nothing towards a remote. -/
theorem Inv.sent_server {site : Site} (inv : Inv s) (hp : s.servers p = some sv) :
    ∀ bytes q rm, s.remotes q = some rm → (Event.send sv.fd site bytes).relayedOn rm.fd = [] :=
  fun bytes q rm hq => (inv.quiet_server (e := .send sv.fd site bytes) hp rfl q rm hq).1

theorem quiet_reply {fd : Fd} {site : Site} (notRelay : site ≠ .relay) (bytes : List Byte) (rm : Remote) :
    (Event.send fd site bytes).relayedOn rm.fd = [] := by
  cases site <;> simp_all [Event.relayedOn]

theorem Inv.sole_remote {y : Ptr} {rm' : Remote} (inv : Inv s) (hq : s.remotes q = some rm)
    (back : rm.server = some p) (hy : s.remotes y = some rm') (back' : rm'.server = some p) : y = q := by
  obtain ⟨p', sv, back₀, hp, paired⟩ := inv.wf.back q rm hq
  rw [back] at back₀
  cases back₀
  exact Option.some.inj ((inv.paired hy back' hp).symm.trans paired)

theorem initial_up (fastOpen : Bool) (off : fastOpen = false) : Up (initial fastOpen : State σ) :=
  ⟨fun _ _ h => by simp [initial] at h, fun _ _ _ h => by simp [initial] at h, off⟩

/-- A new unpaired server on a fresh address, read from at once (`accept_cb`). -/
theorem Up.addServer (up : Up s) (inv : Inv s) (remotes : t.remotes = s.remotes)
    (active : ∀ x, t.active (.serverRecv x) = true → s.active (.serverRecv x) = true ∨ x = p)
    (trace : t.trace = s.trace) (fastOpen : t.fastOpen = s.fastOpen) (fresh : s.next ≤ p) : Up t where
  faithful y rm hy := by
    simp only [State.relayed, State.handed, trace] at *
    exact up.faithful y rm (remotes ▸ hy)
  drained y rm x hy back a := by
    rw [remotes] at hy
    rcases active x a with a | rfl
    · exact up.drained y rm x hy back a
    · obtain ⟨x', _, back', hx', -⟩ := inv.wf.back y rm hy
      rw [back] at back'
      cases back'
      simp [(inv.dead fresh).1] at hx'
  closed := fastOpen.trans up.closed

/-- A new remote `q` with an empty window on a fresh descriptor (the CONNECT branch). -/
theorem Up.attach (up : Up s) (inv : Inv s) (remotes : ∀ y, t.remotes y = if y = q then some rm else s.remotes y)
    (active : t.active = s.active) (trace : t.trace = s.trace) (fastOpen : t.fastOpen = s.fastOpen)
    (fdFresh : s.next ≤ rm.fd) (empty : rm.bufLen = 0) : Up t where
  faithful y rm' hy := by
    simp only [State.relayed, State.handed, trace] at *
    rw [remotes] at hy
    split at hy
    · cases hy
      rw [Remote.pending_eq_nil empty, List.append_nil]
      exact (inv.fresh.relayed_eq_nil fdFresh).trans (inv.fresh.handed_eq_nil fdFresh).symm
    · exact up.faithful y rm' hy
  drained y rm' x hy back a := by
    rw [remotes] at hy
    split at hy
    · cases hy
      exact empty
    · exact up.drained y rm' x hy back (active ▸ a)
  closed := fastOpen.trans up.closed

/-- A step that only moves bytes through the window of remote `q`: `H` is handed upstream, `R`
is relayed, and the window goes from `rm.pending` to `rm'.pending`. No client starts being read,
and its own client only once the window is empty. -/
theorem Up.window {R H : List Byte} (up : Up s) (inv : Inv s) (hq : s.remotes q = some rm) (rm' : Remote)
    (remotes : ∀ y, t.remotes y = if y = q then some rm' else s.remotes y) (fd : rm'.fd = rm.fd)
    (server : rm'.server = rm.server)
    (relayed : ∀ f, t.relayed f = s.relayed f ++ if rm.fd = f then R else [])
    (handed : ∀ f, t.handed f = s.handed f ++ if rm.fd = f then H else [])
    (moved : R ++ rm'.pending = rm.pending ++ H)
    (reading : ∀ x, t.active (.serverRecv x) = true → s.active (.serverRecv x) = true)
    (drainedIf : ∀ x, rm.server = some x → t.active (.serverRecv x) = true → rm'.bufLen = 0)
    (fastOpen : t.fastOpen = s.fastOpen) : Up t where
  faithful y rm'' hy := by
    rw [remotes] at hy
    split at hy
    · next e =>
      subst e
      cases hy
      rw [relayed, handed, fd, if_pos rfl, if_pos rfl, List.append_assoc, moved, ← List.append_assoc,
        up.faithful y rm hq]
    · next ne =>
      have apart : rm.fd ≠ rm''.fd := fun same =>
        inv.owns.fdDistinct (.remote q) (.remote y) rm.fd (by simpa using Ne.symm ne) (by simp [State.fdOf, hq])
          (by simp [State.fdOf, hy, same])
      rw [relayed, handed, if_neg apart, if_neg apart, List.append_nil, List.append_nil]
      exact up.faithful y rm'' hy
  drained y rm'' x hy back a := by
    rw [remotes] at hy
    split at hy
    · cases hy
      exact drainedIf x (server ▸ back) a
    · exact up.drained y rm'' x hy back (reading x a)
  closed := fastOpen.trans up.closed

/-- The client of `p` is read again once the window of its remote is empty. -/
theorem Up.resume (up : Up s) (empty : ∀ y rm, s.remotes y = some rm → rm.server = some p → rm.bufLen = 0) :
    Up (s.start (.serverRecv p)) where
  faithful := up.faithful
  drained y rm x hy back a := by
    by_cases e : x = p
    · subst e
      exact empty y rm hy back
    · rw [State.start_active, Function.update_noteq (fun h => e (Watcher.serverRecv.inj h))] at a
      exact up.drained y rm x hy back a
  closed := up.closed

/-- What was relayed or handed towards remote `q` is forgotten once its session is removed. -/
theorem Still.emit_remove {es : List Endpoint} (inv : Inv s) (hq : s.remotes q = some rm)
    (gone : .remote q ∈ es) (onFd : e.fd = rm.fd) : Still s ((s.emit e).remove es) := by
  have h := Still.remove (s := s.emit e) es
  have apart : ∀ y rm', ((s.emit e).remove es).remotes y = some rm' → e.fd ≠ rm'.fd := by
    intro y rm' hy same
    simp only [State.remove_remotes, State.emit_remotes] at hy
    split at hy
    · cases hy
    · next kept =>
      exact inv.owns.fdDistinct (.remote q) (.remote y) rm.fd (by rintro ⟨⟩; exact kept gone)
        (by simp [State.fdOf, hq]) (by simp [State.fdOf, hy, ← same, onFd])
  refine ⟨h.remotes, h.reading, fun y rm' hy => ?_, fun y rm' hy => ?_, h.fastOpen⟩
  · rw [h.relayed y rm' hy, State.emit_relayed, Event.relayedOn_of_ne (apart y rm' hy), List.append_nil]
  · rw [h.handed y rm' hy, State.emit_handed, Event.handedOn_of_ne (apart y rm' hy), List.append_nil]

theorem Up.teardown {r : Option Ptr} (up : Up u) (inv : Inv u) (hp : u.servers p = some sv) (hr : sv.remote = r)
    (h : u.teardown r (some p) = .ok s') : Up s' := by
  subst hr
  rw [teardown_ok inv hp] at h
  cases h
  exact (Still.remove _).up up

theorem Up.teardown_remote {r : Option Ptr} (up : Up u) (inv : Inv u) (hq : u.remotes q = some rm)
    (hr : rm.server = r) (h : u.teardown (some q) r = .ok s') : Up s' := by
  obtain ⟨p, sv, back, hp, paired⟩ := inv.wf.back q rm hq
  rw [← hr, back] at h
  exact up.teardown inv hp paired h

/-- A teardown of `q`'s session right after an event towards its upstream. -/
theorem Up.teardown_emit (up : Up v) (inv : Inv v) (hq : v.remotes q = some rm) (back : rm.server = some p)
    (onFd : e.fd = rm.fd) (h : (v.emit e).teardown (some q) (some p) = .ok s') : Up s' := by
  obtain ⟨p', sv, back', hp, paired⟩ := inv.wf.back q rm hq
  rw [back] at back'
  cases back'
  have inv' : Inv (v.emit e) := (Edit.emit (onFd ▸ inv.remote_fd_lt hq)).inv inv
  rw [← paired, teardown_ok inv' hp] at h
  cases h
  exact (Still.emit_remove inv hq (by simp [Server.session, paired]) onFd).up up

section Relay

variable (cipher : Cipher σ) (cfg : Config) {io : Io}

/-- What is left of the window `[0, r)` once `k` of its bytes are accepted. -/
theorem Remote.pending_drop {r : Int} {wire : List Byte} (k : Nat) (within : k ≤ r.toNat)
    (window : ({ rm with bufIdx := 0, bufLen := r } : Remote).pending = wire) :
    ({ rm with bufIdx := k, bufLen := r - k } : Remote).pending = wire.drop k := by
  rw [← window]
  cases hb : rm.buf with
  | none => simp [Remote.pending, hb]
  | some b =>
    simp only [Remote.pending, hb]
    rw [show (k : Int).toNat = 0 + k by omega, show (r - k).toNat = r.toNat - k by omega,
      Buf.slice_drop _ _ _ _ within, Int.toNat_zero]

/-- The window `[k, r)` of what was handed waits in `remote->buf`, and the client is no longer
read until it is sent. -/
theorem Up.park {w : State σ} {wire : List Byte} {r idx len : Int} (k : Nat) (up : Up v) (inv : Inv v)
    (hq : v.remotes q = some rm) (back : rm.server = some p) (empty : rm.bufLen = 0)
    (window : ({ rm with bufIdx := 0, bufLen := r } : Remote).pending = wire) (within : k ≤ r.toNat)
    (hidx : idx = k) (hlen : len = r - k)
    (remotes : w.remotes = v.remotes) (active : w.active = v.active) (fastOpen : w.fastOpen = v.fastOpen)
    (relayed : ∀ f, w.relayed f = v.relayed f ++ if rm.fd = f then wire.take k else [])
    (handed : ∀ f, w.handed f = v.handed f ++ if rm.fd = f then wire else []) :
    Up (((w.setRemote q { rm with bufIdx := idx, bufLen := len }).stop (.serverRecv p)).start (.remoteSend q)) := by
  subst hidx hlen
  refine up.window inv hq { rm with bufIdx := k, bufLen := r - k } (fun y => by simp [Function.update_apply, remotes])
    rfl rfl (fun f => by simpa using relayed f) (fun f => by simpa using handed f) ?_ (fun x a => ?_)
    (fun x b a => ?_) (by simpa using fastOpen)
  · rw [Remote.pending_drop k within window, Remote.pending_eq_nil empty, List.take_append_drop, List.nil_append]
  · by_cases e : x = p
    · subst e; simp at a
    · simpa [Function.update_apply, e, active] using a
  · rw [back] at b
    cases b
    simp at a

/-- `sendUp` right after stage 5 handed `wire`, the window `[0, r)` of `remote->buf`, upstream:
the remote's window was empty. -/
theorem sendUp_up {r : Int} {before wire : List Byte} (up : Up v) (inv : Inv v) (hq : v.remotes q = some rm)
    (back : rm.server = some p) (empty : rm.bufLen = 0)
    (window : ({ rm with bufIdx := 0, bufLen := r } : Remote).pending = wire)
    (h : sendUp p q io r (v.emit (.hand rm.fd before wire)) = .ok s') : Up s' := by
  obtain ⟨rm', hq', h⟩ := bind_eq_ok.1 h
  obtain rfl : rm = rm' := Option.some.inj (hq.symm.trans (by simpa using hq'))
  have handed : ∀ f, (v.emit (.hand rm.fd before wire)).handed f = v.handed f ++ if rm.fd = f then wire else [] :=
    fun f => by simp [Event.handedOn]
  have relayed : ∀ f, (v.emit (.hand rm.fd before wire)).relayed f = v.relayed f ++ if rm.fd = f then wire.take 0 else [] :=
    fun f => by simp [Event.relayedOn]
  split at h
  · -- not connected: with fast open off, `connect` and wait for the write event
    dsimp only at h
    rw [if_pos (by simp [up.closed])] at h
    obtain rfl := pure_eq_ok.1 h
    exact (Still.start (by simp)).up
      (Up.park 0 up inv hq back empty window (by simp) rfl (by simp) rfl rfl rfl relayed handed)
  · -- connected: send the window
    obtain ⟨B, hb, h⟩ := bind_eq_ok.1 h
    replace hb := deref_eq_ok.1 hb
    have win : B.slice 0 r.toNat = wire := by simpa [Remote.pending, hb] using window
    obtain ⟨a, sent, h⟩ := bind_eq_ok.1 h
    split at h
    · obtain rfl := State.send_error sent
      obtain rfl := pure_eq_ok.1 h
      exact Up.park 0 up inv hq back empty window (by simp) rfl (by simp) rfl rfl rfl relayed handed
    · obtain rfl := State.send_error sent
      exact up.teardown_emit inv hq back (by rfl) h
    · next k _ =>
      obtain ⟨-, nonneg, within, rfl⟩ := State.send_accept sent
      simp only [Int.toNat_zero, win] at h
      have relayed' : ∀ f, ((v.emit (.hand rm.fd before wire)).emit (.send rm.fd .relay (wire.take k))).relayed f =
          v.relayed f ++ if rm.fd = f then wire.take k else [] := fun f => by simp [Event.relayedOn]
      have handed' : ∀ f, ((v.emit (.hand rm.fd before wire)).emit (.send rm.fd .relay (wire.take k))).handed f =
          v.handed f ++ if rm.fd = f then wire else [] := fun f => by simp [Event.handedOn]
      split at h <;> obtain rfl := pure_eq_ok.1 h
      · exact Up.park k up inv hq back empty window within rfl rfl rfl rfl rfl relayed' handed'
      · -- the whole window went: nothing waits
        have all : wire.take k = wire := List.take_of_length_le (by rw [← win]; simp; omega)
        refine up.window inv hq rm (fun y => by split_ifs with e <;> simp [e, hq]) rfl rfl
          (R := wire) (H := wire) (fun f => by rw [relayed', all]) handed' (by simp [Remote.pending_eq_nil empty])
          (fun x a => a) (fun _ _ _ => empty) rfl

/-- Stage 5 hands the first `r` bytes of `remote->buf` upstream, through `ss_encrypt` unless
direct, while the remote's window is empty. -/
theorem relayUp_up {remote : Option Ptr} {r : Int} (up : Up s) (inv : Inv s) (hp : s.servers p = some sv)
    (hl : sv.remote = remote) (empty : ∀ q rm, remote = some q → s.remotes q = some rm → rm.bufLen = 0)
    (h : relayUp cipher p io remote r s = .ok s') : Up s' := by
  cases remote with
  | none => exact up.teardown inv hp hl h
  | some q =>
    obtain ⟨sv', hp', h⟩ := bind_eq_ok.1 h
    obtain rfl := Option.some.inj (hp.symm.trans (State.server?_eq_ok.1 hp'))
    obtain ⟨rm, hq, h⟩ := bind_eq_ok.1 h
    replace hq := State.remote?_eq_ok.1 hq
    obtain ⟨rm', hq', back⟩ := inv.wf.pair p sv q hp hl
    obtain rfl := Option.some.inj (hq.symm.trans hq')
    have drained := empty q rm rfl hq
    have lt := inv.remote_fd_lt hq
    split at h
    · obtain ⟨b, hb, h⟩ := bind_eq_ok.1 h
      replace hb := deref_eq_ok.1 hb
      dsimp only at h
      split at h
      · -- `ss_encrypt` failed: `remote->buf` is freed and the session ends
        obtain ⟨u, freed, h⟩ := bind_eq_ok.1 h
        have hp₂ : (u.setRemote q { rm with buf := none }).servers p = some sv := by
          simpa [(State.free_eq_ok.1 freed).2] using hp
        have hq₂ : u.remotes q = some rm := by simpa [(State.free_eq_ok.1 freed).2] using hq
        exact Up.teardown (((Still.free freed).trans (Still.refill hq₂ (by rfl) (by rfl) (by rfl) drained)).up up)
          (inv.dropRemoteBuf hq hb freed) hp₂ hl h
      · next wire ctx encrypted =>
        have still : Still s ((s.setServer p { sv with eCtx := ctx }).setRemote q { rm with buf := some (b.load wire) }) :=
          (Still.setServer _ _).trans (Still.refill (by simpa using hq) (by rfl) (by rfl) (by rfl) drained)
        have edit : Edit s ((s.setServer p { sv with eCtx := ctx }).setRemote q { rm with buf := some (b.load wire) }) :=
          (Edit.setServer hp (by simp [Server.shape, Server.blocks, ssEncrypt_ctx cipher encrypted])).trans
            (Edit.setRemote (by simpa using hq) (by simp [Remote.shape, Remote.blocks, hb]))
        refine sendUp_up (still.up up) (edit.inv inv) (show _ = some { rm with buf := some (b.load wire) } by simp)
          back drained ?_ h
        simp [Remote.pending, encLength_toNat cipher encrypted (Buf.length_slice _ _ _), Buf.slice_load]
    · exact sendUp_up up inv hq back drained (by cases hb : rm.buf <;> simp [Remote.pending, hb]) h

theorem deliver_up {r : Int} (up : Up s) (inv : Inv s) (hp : s.servers p = some sv) (paired : sv.remote = some q)
    (h : deliver p q io r s = .ok s') : Up s' := by
  obtain ⟨sv₁, hp₁, h⟩ := bind_eq_ok.1 h
  obtain rfl := Option.some.inj (hp.symm.trans (State.server?_eq_ok.1 hp₁))
  obtain ⟨b, -, h⟩ := bind_eq_ok.1 h
  obtain ⟨a, sent, h⟩ := bind_eq_ok.1 h
  split at h
  · obtain rfl := (State.send_error sent).symm
    obtain rfl := pure_eq_ok.1 h
    exact (((Still.setServer _ _).trans (Still.stop _)).trans (Still.start (by simp))).up up
  · obtain rfl := (State.send_error sent).symm
    exact up.teardown inv hp paired h
  · have still := Still.send (inv.sent_server hp) sent
    split at h <;> obtain rfl := pure_eq_ok.1 h
    · exact (((still.trans (Still.setServer _ _)).trans (Still.stop _)).trans (Still.start (by simp))).up up
    · exact still.up up

theorem serverSendCb_up (up : Up s) (inv : Inv s) (h : serverSendCb p io s = .ok s') : Up s' := by
  obtain ⟨sv, hp, h⟩ := bind_eq_ok.1 h
  replace hp := State.server?_eq_ok.1 hp
  split at h
  · exact up.teardown inv hp rfl h
  obtain ⟨b, -, h⟩ := bind_eq_ok.1 h
  obtain ⟨a, sent, h⟩ := bind_eq_ok.1 h
  split at h
  · obtain rfl := (State.send_error sent).symm
    split at h
    · exact up.teardown inv hp rfl h
    · obtain rfl := pure_eq_ok.1 h
      exact up
  · have still := Still.send (inv.sent_server hp) sent
    split at h
    · obtain rfl := pure_eq_ok.1 h
      exact (still.trans (Still.setServer _ _)).up up
    · obtain ⟨q, -, h⟩ := bind_eq_ok.1 h
      obtain ⟨rm, -, h⟩ := bind_eq_ok.1 h
      obtain rfl := pure_eq_ok.1 h
      exact (((still.trans (Still.setServer _ _)).trans (Still.stop _)).trans (Still.start (by simp))).up up

theorem remoteRecvCb_up {rm : Remote} (up : Up s) (inv : Inv s) (hq : s.remotes q = some rm)
    (h : remoteRecvCb cipher cfg q io s = .ok s') : Up s' := by
  obtain ⟨rm', hq', h⟩ := bind_eq_ok.1 h
  obtain rfl : rm = rm' := Option.some.inj (hq.symm.trans (State.remote?_eq_ok.1 hq'))
  have e₁ : Edit s (s.timerAgain (.idleTimer q) (idleRepeat cfg)) :=
    Edit.timerAgain _ (by simp [State.isLive, Watcher.owner, hq])
  have up₁ : Up (s.timerAgain (.idleTimer q) (idleRepeat cfg)) := (Still.timerAgain q _).up up
  obtain ⟨p, back, h⟩ := bind_eq_ok.1 h
  obtain ⟨sv, hp, h⟩ := bind_eq_ok.1 h
  replace hp : s.servers p = some sv := by simpa using hp
  replace back := deref_eq_ok.1 back
  have paired := inv.paired hq back hp
  have hp₁ : (s.timerAgain (.idleTimer q) (idleRepeat cfg)).servers p = some sv := by simpa using hp
  split at h
  · obtain rfl := pure_eq_ok.1 h
    exact up₁
  · exact up₁.teardown (e₁.inv inv) hp₁ paired h
  next bytes _ =>
  by_cases nil : bytes.take bufSize = []
  · simp only [nil, if_true] at h
    exact up₁.teardown (e₁.inv inv) hp₁ paired h
  simp only [nil, if_false] at h
  obtain ⟨b, hb, h⟩ := bind_eq_ok.1 h
  obtain ⟨b', stored, h⟩ := bind_eq_ok.1 h
  replace hb := deref_eq_ok.1 hb
  have e₂ : Edit s (((s.timerAgain (.idleTimer q) (idleRepeat cfg)).setServer p { sv with buf := some b' }).emit
      (.recv rm.fd (bytes.take bufSize))) :=
    (e₁.trans (Edit.setServer hp₁ (by simp [Server.shape, Server.blocks, hb, Buf.store_ptr stored]))).thenEmit
      (inv.remote_fd_lt hq)
  have up₂ : Up (((s.timerAgain (.idleTimer q) (idleRepeat cfg)).setServer p { sv with buf := some b' }).emit
      (.recv rm.fd (bytes.take bufSize))) :=
    ((Still.setServer _ _).trans Still.recv).up up₁
  have hp₂ : (((s.timerAgain (.idleTimer q) (idleRepeat cfg)).setServer p { sv with buf := some b' }).emit
      (.recv rm.fd (bytes.take bufSize))).servers p = some { sv with buf := some b' } := by simp
  -- the hand towards the client is on its descriptor, which no remote shares
  have quiet : ∀ before after y rm', (s.remotes y = some rm') →
      (Event.hand sv.fd before after).relayedOn rm'.fd = [] ∧ (Event.hand sv.fd before after).handedOn rm'.fd = [] :=
    fun _ _ => inv.quiet_server hp rfl
  split at h
  · split at h
    · obtain ⟨u, freed, h⟩ := bind_eq_ok.1 h
      exact Up.teardown (((Still.free freed).trans (Still.setServer _ _)).up up₂)
        ((e₂.inv inv).dropServerBuf hp₂ rfl freed) (show _ = some { sv with buf := none } by simp) paired h
    · next plain ctx decrypted =>
      refine deliver_up (Still.up ((Still.setServer _ _).trans (Still.emit fun y rm' hy => quiet _ _ y rm' ?_)) up₂)
        (Edit.inv ((e₂.trans (Edit.setServer hp₂ ?_)).thenEmit (inv.server_fd_lt hp)) inv)
        (show _ = some { sv with buf := some (b'.load plain), dCtx := ctx } by simp) paired h
      · simpa using hy
      · simp [Server.shape, Server.blocks, hb, Buf.store_ptr stored, ssDecrypt_ctx cipher decrypted]
  · refine deliver_up ((Still.emit fun y rm' hy => quiet _ _ y rm' ?_).up up₂)
      ((e₂.thenEmit (e := .hand sv.fd _ _) (inv.server_fd_lt hp)).inv inv)
      (show _ = some { sv with buf := some b' } by simp) paired h
    simpa using hy

theorem flushUp_up {server : Option Ptr} (up : Up s) (inv : Inv s) (hq : s.remotes q = some rm)
    (back : rm.server = server) (h : flushUp q server io s = .ok s') : Up s' := by
  subst back
  obtain ⟨rm', hq', h⟩ := bind_eq_ok.1 h
  obtain rfl : rm = rm' := Option.some.inj (hq.symm.trans (State.remote?_eq_ok.1 hq'))
  split at h
  · exact up.teardown_remote inv hq rfl h
  rename_i busy
  obtain ⟨p, sv, back, hp, paired⟩ := inv.wf.back q rm hq
  -- bytes wait upstream, so the client is not being read
  have idle : s.active (.serverRecv p) = false := by
    cases a : s.active (.serverRecv p)
    · rfl
    · exact absurd (up.drained q rm p hq back a) busy
  obtain ⟨b, hb, h⟩ := bind_eq_ok.1 h
  replace hb := deref_eq_ok.1 hb
  obtain ⟨a, sent, h⟩ := bind_eq_ok.1 h
  split at h
  · obtain rfl := (State.send_error sent).symm
    split at h
    · exact up.teardown_remote inv hq rfl h
    · obtain rfl := pure_eq_ok.1 h
      exact up
  next k _ =>
  obtain ⟨start, -, within, rfl⟩ := State.send_accept sent
  have window : b.slice rm.bufIdx.toNat rm.bufLen.toNat = rm.pending := by simp [Remote.pending, hb]
  rw [window] at h
  have relayed : ∀ f, (s.emit (.send rm.fd .relay (rm.pending.take k))).relayed f =
      s.relayed f ++ if rm.fd = f then rm.pending.take k else [] := fun f => by simp [Event.relayedOn]
  have handed : ∀ f, (s.emit (.send rm.fd .relay (rm.pending.take k))).handed f =
      s.handed f ++ if rm.fd = f then [] else [] := fun f => by simp [Event.handedOn]
  split at h
  · -- a short send: the window moves on by `k`
    obtain rfl := pure_eq_ok.1 h
    refine up.window inv hq { rm with bufLen := rm.bufLen - k, bufIdx := rm.bufIdx + k }
      (fun y => by simp [Function.update_apply]) rfl rfl relayed handed ?_ (fun x a => a) (fun x b a => ?_) rfl
    · have rest : b.slice (rm.bufIdx + k).toNat (rm.bufLen - k).toNat = rm.pending.drop k := by
        rw [show (rm.bufIdx + k).toNat = rm.bufIdx.toNat + k by omega,
          show (rm.bufLen - k).toNat = rm.bufLen.toNat - k by omega, Buf.slice_drop _ _ _ _ within, window]
      simp only [Remote.pending, hb, rest, List.take_append_drop, List.append_nil]
    · rw [back] at b
      cases b
      simp [idle] at a
  · -- the whole window went: the client is read again
    obtain ⟨x, hx, h⟩ := bind_eq_ok.1 h
    obtain ⟨sv', -, h⟩ := bind_eq_ok.1 h
    obtain rfl := pure_eq_ok.1 h
    obtain rfl : p = x := Option.some.inj (back.symm.trans (deref_eq_ok.1 hx))
    have all : rm.pending.take k = rm.pending :=
      List.take_of_length_le (by rw [← window, Buf.length_slice]; omega)
    refine Up.resume (up.window inv hq { rm with bufLen := 0, bufIdx := 0 } (fun y => by simp [Function.update_apply])
      rfl rfl relayed handed (by simp [all, Remote.pending_eq_nil]) (fun x a => by simpa using a)
      (fun x _ a => rfl) rfl) fun y rm' hy back' => ?_
    by_cases e : y = q
    · subst e
      simp only [State.stop_remotes, State.setRemote_remotes, Function.update_same, Option.some.injEq] at hy
      rw [← hy]
    · simp only [State.stop_remotes, State.setRemote_remotes, State.emit_remotes, Function.update_noteq e] at hy
      exact absurd (inv.sole_remote hq back hy back') e

theorem remoteSendCb_up (up : Up s) (inv : Inv s) (h : remoteSendCb q io s = .ok s') : Up s' := by
  obtain ⟨rm, hq, h⟩ := bind_eq_ok.1 h
  replace hq := State.remote?_eq_ok.1 hq
  split at h
  · dsimp only at h
    split at h
    · -- the connect completed
      have e : Edit s ((((s.setRemote q { rm with connected := true }).stop (.connectTimer q)).start
          (.idleTimer q)).start (.remoteRecv q)) :=
        (((Edit.setRemote hq (by rfl)).trans (Edit.stop _)).trans
          (Edit.start (by simp [State.isLive, Watcher.owner]))).trans
            (Edit.start (by simp [State.isLive, Watcher.owner]))
      have still : Still s ((((s.setRemote q { rm with connected := true }).stop (.connectTimer q)).start
          (.idleTimer q)).start (.remoteRecv q)) :=
        (((Still.setRemote hq (by rfl) (by rfl) (by rfl) (by rfl)).trans (Still.stop _)).trans
          (Still.start (by simp))).trans (Still.start (by simp))
      split at h
      · -- nothing waits: the client is read again
        rename_i empty
        obtain ⟨p, back, h⟩ := bind_eq_ok.1 h
        obtain ⟨sv, -, h⟩ := bind_eq_ok.1 h
        obtain rfl := pure_eq_ok.1 h
        refine ((Still.stop _).up (still.up up)).resume fun y rm' hy back' => ?_
        by_cases e : y = q
        · subst e
          simp only [State.stop_remotes, State.start_remotes, State.setRemote_remotes, Function.update_same,
            Option.some.injEq] at hy
          rw [← hy]
          exact empty
        · simp only [State.stop_remotes, State.start_remotes, State.setRemote_remotes,
            Function.update_noteq e] at hy
          exact absurd (inv.sole_remote hq (deref_eq_ok.1 back) hy back') e
      · exact flushUp_up (still.up up) (e.inv inv) (show _ = some { rm with connected := true } by simp) rfl h
    · exact up.teardown_remote inv hq rfl h
  · exact flushUp_up up inv hq rfl h

theorem remoteTimeoutCb_up (up : Up s) (inv : Inv s) (h : remoteTimeoutCb q s = .ok s') : Up s' := by
  obtain ⟨rm, hq, h⟩ := bind_eq_ok.1 h
  exact up.teardown_remote inv (State.remote?_eq_ok.1 hq) rfl h

end Relay

section Handshake

variable (cipher : Cipher σ) (cfg : Config) {io : Io}

theorem greet_up (up : Up s) (hp : s.servers p = some sv) (h : greet p io s = .ok s') : Up s' := by
  simp only [greet, State.server?_of hp, ok_bind, pure_eq_ok] at h
  subst h
  exact ((Still.sendBytes (fun bytes _ rm _ => quiet_reply (by decide) bytes rm) _ _).trans (Still.setServer _ _)).up up

/-- What a pass of the loop leaves: `Up` and, when the loop goes round, a remote whose window is
empty. -/
def PassUp : Pass σ → Prop
  | .done s => Up s
  | .again l s => Up s ∧ ∀ q rm, l.remote = some q → s.remotes q = some rm → rm.bufLen = 0

theorem reply_up {udp : Bool} {addr : List Byte} {l : Locals} {pass : Pass σ} (up : Up s) (inv : Inv s)
    (hp : s.servers p = some sv) (hl : sv.remote = l.remote)
    (empty : ∀ q rm, l.remote = some q → s.remotes q = some rm → rm.bufLen = 0)
    (h : reply p io udp addr l s = .ok pass) : PassUp pass := by
  simp only [reply, State.server?_of hp, ok_bind] at h
  obtain ⟨sb, hsb, h⟩ := bind_eq_ok.1 h
  obtain ⟨sb', stored, h⟩ := bind_eq_ok.1 h
  obtain ⟨⟨res, s₁⟩, sent, h⟩ := bind_eq_ok.1 h
  have e : Edit s s₁ :=
    (Edit.setServer hp (by simp [Server.shape, Server.blocks, deref_eq_ok.1 hsb, Buf.store_ptr stored])).trans
      (Edit.send (by exact inv.server_fd_lt hp) sent)
  have still : Still s s₁ :=
    (Still.setServer _ _).trans (Still.send (fun bytes _ rm _ => quiet_reply (by decide) bytes rm) sent)
  have hp₁ : s₁.servers p = some { sv with buf := some sb' } := by simp [State.send_servers sent]
  split at h
  · obtain ⟨s₂, down, h⟩ := bind_eq_ok.1 h
    obtain rfl := pure_eq_ok.1 h
    exact (still.up up).teardown (e.inv inv) hp₁ hl down
  simp only [pure_bind] at h
  split at h
  · obtain ⟨s₂, down, h⟩ := bind_eq_ok.1 h
    obtain rfl := pure_eq_ok.1 h
    exact (still.up up).teardown (e.inv inv) hp₁ hl down
  · obtain rfl := pure_eq_ok.1 h
    exact ⟨still.up up, fun q rm hq hr => empty q rm hq (by simpa [State.send_remotes sent] using hr)⟩

/-- `close_and_free_server` of an unpaired server whose stage was just set. -/
theorem Up.closeAndFreeServer_restaged (up : Up u) (inv : Inv u) (hp : u.servers p = some sv)
    (alone : sv.remote = none) (stage : Nat)
    (h : (u.setServer p { sv with stage := stage }).closeAndFreeServer (some p) = .ok s') : Up s' := by
  rw [inv.closeAndFreeServer_restaged hp alone stage] at h
  cases h
  exact (Still.remove _).up up

/-- The CONNECT branch keeps `Up`; the remote it pairs the server with has an empty window. -/
theorem connectRequest_up {l : Locals} {b : Buf} {res : Option Locals} (up : Up s) (inv : Inv s)
    (hp : s.servers p = some sv) (alone : sv.remote = none) (hl : l.remote = none)
    (h : connectRequest cfg p io l b s = .ok (res, s')) :
    Up s' ∧ ∀ l', res = some l' → ∀ q rm, l'.remote = some q → s'.remotes q = some rm → rm.bufLen = 0 := by
  have inv₁ : Inv s.malloc.2 := malloc_inv inv
  have up₁ : Up s.malloc.2 := (Still.heap _ _).up up
  have hp₁ : s.malloc.2.servers p = some sv := hp
  simp only [connectRequest, bind_eq_ok] at h
  obtain ⟨atyp, -, header?, -, h⟩ := h
  rcases header? with _ | ⟨header, host, service⟩
  · obtain ⟨s'', down, h⟩ := bind_eq_ok.1 h
    simp only [pure_eq_ok, Prod.mk.injEq] at h
    obtain ⟨rfl, rfl⟩ := h
    rw [hl, ← alone] at down
    exact ⟨up₁.teardown inv₁ hp₁ rfl down, by simp⟩
  · simp only [State.server?_of hp₁, ok_bind] at h
    obtain ⟨⟨remote, s₃⟩, hc, h⟩ := bind_eq_ok.1 h
    obtain ⟨_, -, h⟩ := bind_eq_ok.1 h
    rcases connectToRemote_cases cfg hc with ⟨rfl, rfl | rfl⟩ | ⟨rfl, rfl⟩
    · obtain ⟨s'', down, h⟩ := bind_eq_ok.1 h
      simp only [pure_eq_ok, Prod.mk.injEq] at h
      obtain ⟨rfl, rfl⟩ := h
      exact ⟨up₁.closeAndFreeServer_restaged inv₁ hp₁ alone 5 down, by simp⟩
    · obtain ⟨s'', down, h⟩ := bind_eq_ok.1 h
      simp only [pure_eq_ok, Prod.mk.injEq] at h
      obtain ⟨rfl, rfl⟩ := h
      have up₂ : Up { s.malloc.2 with
          heap := Function.update (Function.update s.malloc.2.heap s.malloc.2.next true) s.malloc.2.next false,
          next := s.malloc.2.next + 1 } := (Still.heap _ _).up up₁
      exact ⟨up₂.closeAndFreeServer_restaged (malloc_free_inv inv₁) hp₁ alone 5 down, by simp⟩
    · simp only [State.remote?, State.setRemote_remotes, Function.update_same, ok_bind, deref] at h
      obtain ⟨⟨rb', r'⟩, chunk, h⟩ := bind_eq_ok.1 h
      simp only [State.server?, State.setRemote_servers, State.malloc_snd_servers, State.openFd_snd_servers,
        State.setServer_servers, Function.update_same, ok_bind, pure_eq_ok, Prod.mk.injEq] at h
      obtain ⟨rfl, rfl⟩ := h
      refine ⟨@Up.attach σ s.malloc.2 _ (s.malloc.2.next + 2)
        ⟨s.malloc.2.next + 1, some rb', 0, 0, cfg.acl && (atyp == 1 && io.aclIp || atyp == 3 && io.aclDomain), false,
          s.malloc.2.next + 4, s.malloc.2.next + 5, some s.malloc.2.next, some p⟩ up₁ inv₁ ?_ ?_ ?_ ?_ ?_ rfl, ?_⟩
      all_goals simp [Function.update_apply, Nat.add_assoc]
      · intro y; split_ifs <;> rfl
      · rfl
      · rintro q rm rfl h
        simp only [if_true, Option.some.injEq] at h
        rw [← h]

theorem request_up {l : Locals} {pass : Pass σ} (up : Up s) (g : Good s) (hp : s.servers p = some sv)
    (stage1 : sv.stage = 1) (hl : sv.remote = l.remote) (h : request cfg p io l s = .ok pass) : PassUp pass := by
  simp only [request, State.server?_of hp, ok_bind] at h
  obtain ⟨b, -, h⟩ := bind_eq_ok.1 h
  obtain ⟨cmd, -, h⟩ := bind_eq_ok.1 h
  have alone : sv.remote = none := by
    cases hr : sv.remote with
    | none => rfl
    | some q => simp [(g.inv.wf.stage p sv hp).1 (by simp [hr])] at stage1
  split at h
  · exact reply_up up g.inv hp hl (fun q rm hq => by rw [← hl, alone] at hq; cases hq) h
  split at h
  · obtain ⟨s₂, down, h⟩ := bind_eq_ok.1 h
    obtain rfl := pure_eq_ok.1 h
    exact ((Still.sendBytes (fun bytes _ rm _ => quiet_reply (by decide) bytes rm) _ _).up up).teardown
      ((Edit.sendBytes (g.inv.server_fd_lt hp) _ _ _).inv g.inv) (by simpa using hp) hl down
  · obtain ⟨⟨res, s₂⟩, conn, h⟩ := bind_eq_ok.1 h
    obtain ⟨up₂, fresh⟩ := connectRequest_up cfg up g.inv hp alone (hl.symm.trans alone) conn
    obtain ⟨g₂, paired⟩ := connectRequest_good cfg g hp alone (hl.symm.trans alone) conn
    cases res with
    | none =>
      obtain rfl := pure_eq_ok.1 h
      exact up₂
    | some l' =>
      obtain ⟨sv', hp', hl', -⟩ := paired l' rfl
      exact reply_up up₂ g₂.inv hp' hl' (fresh l' rfl) h

/-- The two passes `server_recv_cb` makes, entered while the client is read. -/
theorem twoPasses_up {l : Locals} (up : Up s) (g : Good s) (staged : Staged s) (hp : s.servers p = some sv)
    (hl : sv.remote = l.remote) (reading : s.active (.serverRecv p) = true)
    (h : twoPasses cipher cfg p io l s = .ok s') : Up s' := by
  simp only [twoPasses, State.server?_of hp, ok_bind] at h
  split at h
  · refine relayUp_up cipher up g.inv hp hl (fun q rm paired hq => ?_) h
    obtain ⟨rm', hq', back⟩ := g.inv.wf.pair p sv q hp (hl.trans paired)
    obtain rfl := Option.some.inj (hq.symm.trans hq')
    exact up.drained q rm p hq back reading
  split at h
  · exact greet_up up hp h
  have stage1 : sv.stage = 1 := by
    have := staged p sv.stage (State.stageOf_of hp)
    omega
  obtain ⟨pass, hr, h⟩ := bind_eq_ok.1 h
  have ok := request_up cfg up g hp stage1 hl hr
  cases pass with
  | done s₁ =>
    obtain rfl := pure_eq_ok.1 h
    exact ok
  | again l₁ s₁ =>
    obtain ⟨g₁, sv₁, hp₁, hl₁⟩ := request_good cfg g hp stage1 hl hr
    exact relayUp_up cipher ok.1 g₁.inv hp₁ hl₁ ok.2 h

/-- Storing what the client sent: into the remote's buffer, whose window is empty while the
client is read, or into the server's own. -/
theorem setBuffer_still {b : Buf} (up : Up s) (inv : Inv s) (hp : s.servers p = some sv)
    (reading : s.active (.serverRecv p) = true) (h : setBuffer s p sv.remote b = .ok u) :
    Still s u ∧ u.active = s.active := by
  cases hr : sv.remote with
  | none =>
    rw [hr] at h
    obtain ⟨sv', -, h⟩ := bind_eq_ok.1 h
    obtain rfl := pure_eq_ok.1 h
    exact ⟨Still.setServer _ _, rfl⟩
  | some q =>
    rw [hr] at h
    obtain ⟨rm, hq, h⟩ := bind_eq_ok.1 h
    obtain rfl := pure_eq_ok.1 h
    replace hq := State.remote?_eq_ok.1 hq
    obtain ⟨rm', hq', back⟩ := inv.wf.pair p sv q hp hr
    obtain rfl := Option.some.inj (hq.symm.trans hq')
    exact ⟨Still.refill hq (by rfl) (by rfl) (by rfl) (up.drained q rm p hq back reading), rfl⟩

theorem serverRecvCb_up (up : Up s) (g : Good s) (staged : Staged s) (reading : s.active (.serverRecv p) = true)
    (h : serverRecvCb cipher cfg p io s = .ok s') : Up s' := by
  obtain ⟨sv, hp, h⟩ := bind_eq_ok.1 h
  replace hp := State.server?_eq_ok.1 hp
  split at h
  · obtain rfl := pure_eq_ok.1 h
    exact up
  · exact up.teardown g.inv hp rfl h
  next bytes _ =>
  by_cases empty : bytes.take bufSize = []
  · simp only [empty, if_true] at h
    exact up.teardown g.inv hp rfl h
  simp only [empty, if_false] at h
  obtain ⟨b, hb, h⟩ := bind_eq_ok.1 h
  obtain ⟨b', stored, h⟩ := bind_eq_ok.1 h
  obtain ⟨u, set, h⟩ := bind_eq_ok.1 h
  have c : Calm s (u.emit (.recv sv.fd (bytes.take bufSize))) :=
    (setBuffer_calm g ⟨sv, hp, rfl⟩ hb stored set).thenEmit (e := .recv sv.fd (bytes.take bufSize))
      (g.inv.server_fd_lt hp) silent_recv
  obtain ⟨still, active⟩ := setBuffer_still up g.inv hp reading set
  have staged' : Staged (u.emit (.recv sv.fd (bytes.take bufSize))) :=
    ((setBuffer_keeps set).trans (Keeps.of_eq rfl)).staged staged
  have loop : ∀ l, serverRecvLoop cipher cfg p io 2 l _ = twoPasses cipher cfg p io l _ := fun _ =>
    serverRecvLoop_two cipher cfg 0 staged'
  rw [loop] at h
  obtain ⟨sv', hp', same⟩ := c.edit.server hp
  exact twoPasses_up cipher cfg ((still.trans Still.recv).up up) (c.good g) staged' hp'
    (congrArg (fun x => x.2.1) same) (by simpa [active] using reading) h

end Handshake

section Reactor

variable (cipher : Cipher σ) (cfg : Config) {io : Io}

/-- `new_server` touches no remote, watcher, event or flag, and its record is the next block. -/
theorem newServer_frame (fd : Fd) (fresh : Nat → Byte) :
    (newServer cipher cfg s fd fresh).1 = s.next ∧ (newServer cipher cfg s fd fresh).2.remotes = s.remotes ∧
      (newServer cipher cfg s fd fresh).2.active = s.active ∧ (newServer cipher cfg s fd fresh).2.trace = s.trace ∧
      (newServer cipher cfg s fd fresh).2.fastOpen = s.fastOpen := by
  by_cases m : cfg.method = 0 <;>
    refine ⟨?_, funext fun _ => ?_, funext fun _ => ?_, ?_, ?_⟩ <;> simp [newServer, m]

theorem acceptCb_up (up : Up s) (inv : Inv s) : Up (acceptCb cipher cfg s io) := by
  unfold acceptCb
  split
  · obtain ⟨hp, remotes, active, trace, fastOpen⟩ := newServer_frame cipher cfg (s := s.openFd.2) s.openFd.1 io.fresh
    refine up.addServer inv (p := s.next + 1) (by simpa using remotes) (fun x a => ?_) (by simpa using trace)
      (by simpa using fastOpen) (by omega)
    by_cases e : x = s.next + 1
    · exact .inr e
    · rw [State.start_active, hp, active, State.openFd_snd_next,
        Function.update_noteq (fun h => e (Watcher.serverRecv.inj h))] at a
      exact .inl a
  · exact up

theorem dispatch_up {w : Watcher} (up : Up s) (g : Good s) (staged : Staged s) (active : s.active w = true)
    (h : dispatch cipher cfg w io s = .ok s') : Up s' := by
  cases w with
  | serverRecv p => exact serverRecvCb_up cipher cfg up g staged active h
  | serverSend p => exact serverSendCb_up up g.inv h
  | remoteRecv q =>
    obtain ⟨rm, hq⟩ := Option.isSome_iff_exists.1 (g.inv.wf.armed _ active)
    exact remoteRecvCb_up cipher cfg up g.inv hq h
  | remoteSend q => exact remoteSendCb_up up g.inv h
  | connectTimer q => exact remoteTimeoutCb_up ((Still.stop _).up up) ((Edit.stop _).inv g.inv) h
  | idleTimer q =>
    exact remoteTimeoutCb_up ((Still.timerAgain q _).up up) ((Edit.timerAgain _ (g.inv.wf.armed _ active)).inv g.inv) h

theorem tick_up {t : Tick} (up : Up s) (g : Good s) (staged : Staged s) (h : tick cipher cfg t io s = .ok s') :
    Up s' := by
  cases t with
  | accept =>
    cases h
    exact acceptCb_up cipher cfg up g.inv
  | fire w =>
    simp only [tick] at h
    split at h
    · exact dispatch_up cipher cfg up g staged ‹_› h
    · cases h
      exact up

theorem reachable_up (off : cfg.fastOpen = false) (reach : Reachable cipher cfg s) : Up s := by
  induction reach with
  | init => exact initial_up _ off
  | step reach step ih =>
    cases step with
    | tick t io h =>
      exact tick_up cipher cfg ih (reachable_good cipher cfg reach) (reachable_staged cipher cfg reach) h

/-- With fast open off, what the upstream of a live session accepted from the relay `send`s is,
in order, a prefix of what stage 5 handed towards it; the rest is the window still in
`remote->buf`; and while the client may be read into that buffer again, the window is empty. -/
theorem upstream_stream_faithful (off : cfg.fastOpen = false) (reach : Reachable cipher cfg s)
    (hq : s.remotes q = some rm) :
    s.relayed rm.fd <+: s.handed rm.fd ∧ s.relayed rm.fd ++ rm.pending = s.handed rm.fd ∧
      ∀ p, rm.server = some p → s.active (.serverRecv p) = true → rm.bufLen = 0 := by
  have up := reachable_up cipher cfg off reach
  exact ⟨⟨rm.pending, up.faithful q rm hq⟩, up.faithful q rm hq, fun p back => up.drained q rm p hq back⟩

end Reactor

/-- The client greets, then asks for 127.0.0.1:80 with "GET" behind the request, and the
upstream takes 4 of the 10 bytes of the first window: the other 6 wait in `remote->buf`. -/
theorem upstream_stream_after_short_send :
    ∃ s rm, Reachable Cipher.identity plainCfg s ∧ s.remotes 8 = some rm ∧ rm.pending = [1, 0, 80, 71, 69, 84] ∧
      (s.relayed rm.fd <+: s.handed rm.fd ∧ s.relayed rm.fd ++ rm.pending = s.handed rm.fd ∧
        ∀ p, rm.server = some p → s.active (.serverRecv p) = true → rm.bufLen = 0) := by
  obtain ⟨s, reach, live⟩ := exists_of_run Cipher.identity plainCfg [(.accept, {}),
    (.fire (.serverRecv 1), { recv := .data [5, 1, 0], reply := .accept 2 }),
    (.fire (.serverRecv 1), { recv := .data [5, 1, 0, 1, 127, 0, 0, 1, 0, 80, 71, 69, 84], reply := .accept 10 }),
    (.fire (.remoteSend 8), { send := .accept 4 })]
    (fun s => (s.remotes 8).map Remote.pending = some [1, 0, 80, 71, 69, 84]) (by decide)
  obtain ⟨rm, hq, pending⟩ := Option.map_eq_some'.mp live
  exact ⟨s, rm, reach, hq, pending, upstream_stream_faithful Cipher.identity plainCfg rfl reach hq⟩

end Shadowsocks.Local
