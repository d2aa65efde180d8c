import ShadowsocksLocal.Stages

/-! Memory safety of the callbacks. A computation is `MemSafe` when it does not stop on a read
of a freed endpoint record or on a `free` of a block that is not live (`Fault.dangling`): no
use-after-free and no double free. In a reachable state every record a callback reads is live:
the owner of the fired watcher by `Wf.armed`, its partner by `Wf.pair` and `Wf.back`, and the
blocks a teardown releases by `Owns`. The walks below take the invariant of each intermediate
state from `Edit`, so no run of the reactor ever stops on either fault. The shutdown sweep
`free_connections`, outside the loop, does not have this property. -/
namespace Shadowsocks.Local

variable {σ : Type} {α β : Type}

/-- A computation that does not stop on a use-after-free or a double free. -/
def MemSafe (x : Except Fault α) : Prop := x ≠ .error .dangling

namespace MemSafe

theorem bind {x : Except Fault α} {f : α → Except Fault β} (hx : MemSafe x)
    (hf : ∀ a, x = .ok a → MemSafe (f a)) : MemSafe (x >>= f) := by
  cases x with
  | error e => exact fun h => hx (by rw [(Except.error.inj h : e = _)])
  | ok a => exact hf a rfl

theorem ok (a : α) : MemSafe (Except.ok a : Except Fault α) := nofun

theorem other {f : Fault} (ne : f ≠ .dangling) : MemSafe (Except.error f : Except Fault α) :=
  fun h => ne (Except.error.inj h)

theorem deref (o : Option α) : MemSafe (Local.deref o) := by
  cases o
  · exact other (by decide)
  · exact ok _

theorem server? {s : State σ} {p : Ptr} (live : (s.servers p).isSome) : MemSafe (s.server? p) := by
  obtain ⟨sv, hp⟩ := Option.isSome_iff_exists.1 live
  rw [State.server?_of hp]; exact ok _

theorem remote? {s : State σ} {q : Ptr} (live : (s.remotes q).isSome) : MemSafe (s.remote? q) := by
  obtain ⟨rm, hq⟩ := Option.isSome_iff_exists.1 live
  rw [State.remote?_of hq]; exact ok _

theorem free {s : State σ} {b : Ptr} (live : s.heap b = true) : MemSafe (s.free b) := by
  simp [State.free, live, ok]

theorem readByte (b : Buf) (i : Nat) : MemSafe (b.readByte i) := by
  unfold Buf.readByte; split
  · exact ok _
  · exact other (by decide)

theorem read (b : Buf) (idx : Nat) (len : Int) : MemSafe (b.read idx len) := by
  unfold Buf.read; split
  · exact other (by decide)
  split
  · exact ok _
  · exact other (by decide)

theorem store (b : Buf) (off : Nat) (bytes : List Byte) : MemSafe (b.store off bytes) := by
  unfold Buf.store; split
  · exact ok _
  · exact other (by decide)

theorem send (s : State σ) (fd : Fd) (site : Site) (b : Buf) (idx len : Int) (res : Send) :
    MemSafe (s.send fd site b idx len res) := by
  by_cases neg : idx < 0
  · simp only [State.send, neg, if_true]; exact other (by decide)
  · simp only [State.send, neg, if_false, pure_bind]
    exact bind (read _ _ _) fun _ _ => ok _

theorem addrHeader (b : Buf) (off : Nat) (atyp : Byte) : MemSafe (Local.addrHeader b off atyp) := by
  unfold Local.addrHeader
  split
  · exact bind (read _ _ _) fun _ _ => ok _
  split
  · exact bind (readByte _ _) fun _ _ => bind (read _ _ _) fun _ _ => ok _
  split
  · exact bind (read _ _ _) fun _ _ => ok _
  · exact ok _

theorem copyPayload (rb : Buf) (dst : Nat) (b : Buf) (off : Nat) (r : Int) :
    MemSafe (Local.copyPayload rb dst b off r) := by
  unfold Local.copyPayload
  split
  · exact bind (read _ _ _) fun _ _ => store _ _ _
  · exact ok _

theorem firstChunk (direct : Bool) (header : List Byte) (b : Buf) (off : Nat) (r : Int) (rb : Buf) :
    MemSafe (Local.firstChunk direct header b off r rb) := by
  unfold Local.firstChunk
  split
  · exact bind (store _ _ _) fun _ _ => bind (copyPayload _ _ _ _ _) fun _ _ => ok _
  · exact bind (copyPayload _ _ _ _ _) fun _ _ => ok _

theorem markDirect (direct : Bool) (remote : Option Ptr) : MemSafe (Local.markDirect direct remote) := by
  unfold Local.markDirect
  split
  · cases remote
    · exact other (by decide)
    · exact ok _
  · exact ok _

/-- `connect_to_remote` frees only the `addr_info` block it has just allocated. -/
theorem connectToRemote (cfg : Config) (s : State σ) (io : Io) (d : Option (List Byte × List Byte)) :
    MemSafe (Local.connectToRemote cfg s io d) := by
  simp only [Local.connectToRemote]
  by_cases n : cfg.remoteNum = 0
  · simp only [n, if_true, throw_bind]; exact other (by decide)
  · simp only [n, if_false, pure_bind]
    split
    · exact ok _
    · split
      · exact bind (free (by simp)) fun _ _ => ok _
      · exact ok _

end MemSafe

section Teardown

variable {s u : State σ} {p q : Ptr} {sv : Server σ} {rm : Remote}

/-- Under the invariant the teardown of a live session releases only live blocks, once each. -/
theorem Inv.teardown_memSafe {r : Option Ptr} (inv : Inv u) (hp : u.servers p = some sv) (hr : sv.remote = r) :
    MemSafe (u.teardown r (some p)) := by
  rw [← hr, teardown_ok inv hp]; exact MemSafe.ok _

theorem Inv.teardown_remote_memSafe {r : Option Ptr} (inv : Inv u) (hq : u.remotes q = some rm)
    (hr : rm.server = r) : MemSafe (u.teardown (some q) r) := by
  obtain ⟨p, sv, back, hp, paired⟩ := inv.wf.back q rm hq
  rw [← hr, back]
  exact inv.teardown_memSafe hp paired

theorem Edit.teardown_memSafe {r : Option Ptr} (e : Edit s u) (inv : Inv s) (hp : s.servers p = some sv)
    (hr : sv.remote = r) : MemSafe (u.teardown r (some p)) := by
  obtain ⟨sv', hp', same⟩ := e.server hp
  exact (e.inv inv).teardown_memSafe hp' ((congrArg (·.2.1) same).trans hr)

theorem Edit.teardown_remote_memSafe {r : Option Ptr} (e : Edit s u) (inv : Inv s) (hq : s.remotes q = some rm)
    (hr : rm.server = r) : MemSafe (u.teardown (some q) r) := by
  obtain ⟨p, sv, back, hp, paired⟩ := inv.wf.back q rm hq
  rw [← hr, back]
  exact e.teardown_memSafe inv hp paired

/-- `close_and_free_server` of an unpaired server whose stage was just set removes its session. -/
theorem Inv.closeAndFreeServer_restaged (inv : Inv u) (hp : u.servers p = some sv) (alone : sv.remote = none)
    (stage : Nat) :
    (u.setServer p { sv with stage := stage }).closeAndFreeServer (some p) = .ok (u.remove (sv.session p)) := by
  obtain ⟨live, nd⟩ := inv.owns.server_blocks hp
  rw [@State.closeAndFreeServer_ok σ (u.setServer p { sv with stage := stage }) p { sv with stage := stage }
    (by simp) live nd alone,
    @State.dropServer_eq_remove σ (u.setServer p { sv with stage := stage }) p _ inv.wf.nodup (by simp),
    @State.remove_setServer σ u _ p sv { sv with stage := stage } hp rfl rfl (by simp)]
  simp [Server.session, alone]

theorem Inv.closeAndFreeServer_restaged_memSafe (inv : Inv u) (hp : u.servers p = some sv)
    (alone : sv.remote = none) (stage : Nat) :
    MemSafe ((u.setServer p { sv with stage := stage }).closeAndFreeServer (some p)) := by
  rw [inv.closeAndFreeServer_restaged hp alone stage]
  exact MemSafe.ok _

theorem Edit.send {fd : Fd} {site : Site} {b : Buf} {idx len : Int} {res : Send} {x : Except Errno Nat}
    (lt : fd < s.next) (h : s.send fd site b idx len res = .ok (x, u)) : Edit s u := by
  rw [show u = _ from congrArg Prod.snd (State.send_eq_ok h).2.2.2]
  exact Edit.sendBytes lt _ _ res

end Teardown

section Relay

variable (cipher : Cipher σ) (cfg : Config) {io : Io} {s : State σ} {p q : Ptr} {sv : Server σ} {rm : Remote}

theorem sendUp_memSafe (inv : Inv s) (hq : s.remotes q = some rm) (back : rm.server = some p) (r : Int) :
    MemSafe (sendUp p q io r s) := by
  have lt := inv.remote_fd_lt hq
  have tear : ∀ {u : State σ}, Edit s u → MemSafe (u.teardown (some q) (some p)) := fun e =>
    e.teardown_remote_memSafe inv hq back
  simp only [sendUp, State.remote?_of hq, ok_bind]
  split
  · split
    · exact .ok _
    refine .bind (.deref _) fun b _ => .bind (.send _ _ _ _ _ _ _) fun sr sent => ?_
    have e := (Edit.setRemote hq (by rfl)).trans (Edit.send (by exact lt) sent)
    split
    · exact .ok _
    · exact tear (e.trans (by split_ifs; exacts [Edit.fastOpen _, Edit.refl _]))
    · exact .ok _
  · refine .bind (.deref _) fun b _ => .bind (.send _ _ _ _ _ _ _) fun sr sent => ?_
    split
    · exact .ok _
    · exact tear (Edit.send lt sent)
    · split <;> exact .ok _

/-- Stage 5 frees `remote->buf` only when `ss_encrypt` fails, and tears the session down after
clearing the pointer. -/
theorem relayUp_memSafe {remote : Option Ptr} (inv : Inv s) (hp : s.servers p = some sv)
    (hl : sv.remote = remote) (r : Int) : MemSafe (relayUp cipher p io remote r s) := by
  cases remote with
  | none => exact inv.teardown_memSafe hp hl
  | some q =>
    obtain ⟨rm, hq, back⟩ := inv.wf.pair p sv q hp hl
    have lt := inv.remote_fd_lt hq
    simp only [relayUp, State.server?_of hp, State.remote?_of hq, ok_bind]
    split
    · refine .bind (.deref _) fun b hb => ?_
      replace hb := deref_eq_ok.1 hb
      split
      · have live : s.heap b.ptr = true :=
          (inv.owns.remote_blocks hq).1 b.ptr (by simp [Remote.blocks, hb])
        refine .bind (.free live) fun u freed => ?_
        have hq₂ : (u.setRemote q { rm with buf := none }).remotes q = some { rm with buf := none } := by simp
        exact (inv.dropRemoteBuf hq hb freed).teardown_remote_memSafe hq₂ back
      · next wire ctx encrypted =>
        refine sendUp_memSafe (Edit.inv ?_ inv) (show _ = some { rm with buf := some (b.load wire) } by simp) back _
        refine ((Edit.setServer hp ?_).trans (Edit.setRemote (by simpa using hq) ?_)).thenEmit lt
        · simp [Server.shape, Server.blocks, ssEncrypt_ctx cipher encrypted]
        · simp [Remote.shape, Remote.blocks, hb]
    · exact sendUp_memSafe ((Edit.emit (e := .hand rm.fd _ _) lt).inv inv) (by simpa using hq) back _

theorem deliver_memSafe (inv : Inv s) (hp : s.servers p = some sv) (paired : sv.remote = some q) (r : Int) :
    MemSafe (deliver p q io r s) := by
  simp only [deliver, State.server?_of hp, ok_bind]
  refine .bind (.deref _) fun b _ => .bind (.send _ _ _ _ _ _ _) fun sr sent => ?_
  split
  · exact .ok _
  · exact (Edit.send (inv.server_fd_lt hp) sent).teardown_memSafe inv hp paired
  · split <;> exact .ok _

theorem serverSendCb_memSafe (inv : Inv s) (hp : s.servers p = some sv) : MemSafe (serverSendCb p io s) := by
  simp only [serverSendCb, State.server?_of hp, ok_bind]
  split
  · exact inv.teardown_memSafe hp rfl
  refine .bind (.deref _) fun b _ => .bind (.send _ _ _ _ _ _ _) fun sr sent => ?_
  split
  · split
    · exact (Edit.send (inv.server_fd_lt hp) sent).teardown_memSafe inv hp rfl
    · exact .ok _
  · split
    · exact .ok _
    · refine .bind (.deref _) fun q hq => .bind ?_ fun _ _ => .ok _
      obtain ⟨rm, hq, -⟩ := inv.wf.pair p sv q hp (deref_eq_ok.1 hq)
      exact .remote? (by simp [State.send_remotes sent, hq])

theorem remoteRecvCb_memSafe (inv : Inv s) (hq : s.remotes q = some rm) :
    MemSafe (remoteRecvCb cipher cfg q io s) := by
  obtain ⟨p, sv, back, hp, paired⟩ := inv.wf.back q rm hq
  have e₁ : Edit s (s.timerAgain (.idleTimer q) (idleRepeat cfg)) :=
    Edit.timerAgain _ (by simp [State.isLive, Watcher.owner, hq])
  have tear : ∀ {u : State σ}, Edit s u → MemSafe (u.teardown (some q) (some p)) := fun e =>
    e.teardown_memSafe inv hp paired
  simp only [remoteRecvCb, State.remote?_of hq, ok_bind, back, deref,
    State.server?_of (show (s.timerAgain (.idleTimer q) (idleRepeat cfg)).servers p = some sv by simpa using hp)]
  split
  · exact .ok _
  · exact tear e₁
  next bytes _ =>
  by_cases nil : bytes.take bufSize = []
  · simp only [nil, if_true]
    exact tear e₁
  simp only [nil, if_false]
  refine .bind (.deref _) fun b hb => .bind (.store _ _ _) fun b' stored => ?_
  replace hb := deref_eq_ok.1 hb
  have e₂ : Edit s (((s.timerAgain (.idleTimer q) (idleRepeat cfg)).setServer p { sv with buf := some b' }).emit
      (.recv rm.fd (bytes.take bufSize))) :=
    (e₁.trans (Edit.setServer (by simpa using hp)
      (by simp [Server.shape, Server.blocks, hb, Buf.store_ptr stored]))).thenEmit (inv.remote_fd_lt hq)
  have lt := inv.server_fd_lt hp
  have hp₂ : (((s.timerAgain (.idleTimer q) (idleRepeat cfg)).setServer p { sv with buf := some b' }).emit
      (.recv rm.fd (bytes.take bufSize))).servers p = some { sv with buf := some b' } := by simp
  split
  · split
    · have live : _ := ((e₂.inv inv).owns.server_blocks hp₂).1 b'.ptr (by simp [Server.blocks])
      refine .bind (.free live) fun u freed => ?_
      have hp₃ : (u.setServer p { sv with buf := none }).servers p = some { sv with buf := none } := by simp
      exact ((e₂.inv inv).dropServerBuf hp₂ rfl freed).teardown_memSafe hp₃ paired
    · next plain ctx decrypted =>
      refine deliver_memSafe (Edit.inv ?_ inv)
        (show _ = some { sv with buf := some (b'.load plain), dCtx := ctx } by simp) paired _
      refine (e₂.trans (Edit.setServer hp₂ ?_)).thenEmit (e := .hand sv.fd _ plain) lt
      simp [Server.shape, Server.blocks, hb, Buf.store_ptr stored, ssDecrypt_ctx cipher decrypted]
  · exact deliver_memSafe ((e₂.thenEmit (e := .hand sv.fd _ _) lt).inv inv)
      (show _ = some { sv with buf := some b' } by simp) paired _

theorem flushUp_memSafe {server : Option Ptr} (inv : Inv s) (hq : s.remotes q = some rm)
    (back : rm.server = server) : MemSafe (flushUp q server io s) := by
  subst back
  simp only [flushUp, State.remote?_of hq, ok_bind]
  split
  · exact inv.teardown_remote_memSafe hq rfl
  refine .bind (.deref _) fun b _ => .bind (.send _ _ _ _ _ _ _) fun sr sent => ?_
  split
  · split
    · exact (Edit.send (inv.remote_fd_lt hq) sent).teardown_remote_memSafe inv hq rfl
    · exact .ok _
  · split
    · exact .ok _
    · refine .bind (.deref _) fun p hp => .bind ?_ fun _ _ => .ok _
      obtain ⟨p', sv, back, hp', -⟩ := inv.wf.back q rm hq
      obtain rfl : p = p' := Option.some.inj ((deref_eq_ok.1 hp).symm.trans back)
      exact .server? (by simp [State.send_servers sent, hp'])

theorem remoteSendCb_memSafe (inv : Inv s) (hq : s.remotes q = some rm) : MemSafe (remoteSendCb q io s) := by
  simp only [remoteSendCb, State.remote?_of hq, ok_bind]
  split
  · split
    · have e : Edit s ((((s.setRemote q { rm with connected := true }).stop (.connectTimer q)).start
          (.idleTimer q)).start (.remoteRecv q)) :=
        (((Edit.setRemote hq (by rfl)).trans (Edit.stop _)).trans
          (Edit.start (by simp [State.isLive, Watcher.owner]))).trans
            (Edit.start (by simp [State.isLive, Watcher.owner]))
      split
      · refine .bind (.deref _) fun p hp => .bind ?_ fun _ _ => .ok _
        obtain ⟨p', sv, back, hp', -⟩ := inv.wf.back q rm hq
        obtain rfl : p = p' := Option.some.inj ((deref_eq_ok.1 hp).symm.trans back)
        exact .server? (by simp [hp'])
      · exact flushUp_memSafe (e.inv inv) (show _ = some { rm with connected := true } by simp) rfl
    · exact inv.teardown_remote_memSafe hq rfl
  · exact flushUp_memSafe inv hq rfl

theorem remoteTimeoutCb_memSafe (inv : Inv s) (hq : s.remotes q = some rm) : MemSafe (remoteTimeoutCb q s) := by
  simp only [remoteTimeoutCb, State.remote?_of hq, ok_bind]
  exact inv.teardown_remote_memSafe hq rfl

end Relay

section Handshake

variable (cipher : Cipher σ) (cfg : Config) {io : Io} {s : State σ} {p : Ptr} {sv : Server σ}

theorem greet_memSafe (hp : s.servers p = some sv) : MemSafe (greet p io s) := by
  simp only [greet, State.server?_of hp, ok_bind]
  exact .ok _

theorem reply_memSafe {udp : Bool} {addr : List Byte} {l : Locals} (inv : Inv s) (hp : s.servers p = some sv)
    (hl : sv.remote = l.remote) : MemSafe (reply p io udp addr l s) := by
  simp only [reply, State.server?_of hp, ok_bind]
  refine .bind (.deref _) fun sb hsb => .bind (.store _ _ _) fun sb' stored =>
    .bind (.send _ _ _ _ _ _ _) fun ⟨res, s₁⟩ sent => ?_
  have e : Edit s s₁ := (Edit.setServer hp (by
      simp [Server.shape, Server.blocks, deref_eq_ok.1 hsb, Buf.store_ptr stored])).trans
    (Edit.send (by exact inv.server_fd_lt hp) sent)
  simp only [pure_bind]
  split
  · exact .bind (e.teardown_memSafe inv hp hl) fun _ _ => .ok _
  split
  · exact .bind (e.teardown_memSafe inv hp hl) fun _ _ => .ok _
  · exact .ok _

/-- The CONNECT branch frees nothing but the `addr_info` block `connect_to_remote` allocates, and
tears down only its own, still unpaired, session. -/
theorem connectRequest_memSafe {l : Locals} {b : Buf} (inv : Inv s) (hp : s.servers p = some sv)
    (alone : sv.remote = none) (hl : l.remote = none) : MemSafe (connectRequest cfg p io l b s) := by
  have inv₁ : Inv s.malloc.2 := malloc_inv inv
  have hp₁ : s.malloc.2.servers p = some sv := hp
  unfold connectRequest
  refine .bind (.readByte _ _) fun atyp _ => .bind (.addrHeader _ _ _) fun parsed _ => ?_
  rcases parsed with _ | ⟨header, host, service⟩
  · exact .bind (inv₁.teardown_memSafe hp₁ (alone.trans hl.symm)) fun _ _ => .ok _
  refine .bind (.server? (by simp [hp])) fun sv' hsv => ?_
  obtain rfl := Option.some.inj (hp.symm.trans (State.server?_eq_ok.1 hsv))
  refine .bind (.connectToRemote _ _ _ _) fun ⟨remote, s₃⟩ hc => .bind (.markDirect _ _) fun _ _ => ?_
  rcases connectToRemote_cases cfg hc with ⟨rfl, rfl | rfl⟩ | ⟨rfl, rfl⟩
  · exact .bind (inv₁.closeAndFreeServer_restaged_memSafe hp₁ alone 5) fun _ _ => .ok _
  · exact .bind ((malloc_free_inv inv₁).closeAndFreeServer_restaged_memSafe hp₁ alone 5) fun _ _ => .ok _
  · refine .bind (.remote? (by simp)) fun rm hrm => .bind (.deref _) fun rb _ =>
      .bind (.firstChunk _ _ _ _ _ _) fun _ _ => .bind (.server? (by simp)) fun _ _ => .ok _

theorem request_memSafe {l : Locals} (g : Good s) (hp : s.servers p = some sv) (stage1 : sv.stage = 1)
    (hl : sv.remote = l.remote) (owner : l.bufOwner = l.remote) : MemSafe (request cfg p io l s) := by
  have alone : sv.remote = none := by
    cases hr : sv.remote with
    | none => rfl
    | some q => simp [(g.inv.wf.stage p sv hp).1 (by simp [hr])] at stage1
  simp only [request, State.server?_of hp, ok_bind, owner, ← hl, alone, bufferOf]
  refine .bind (.deref _) fun b _ => .bind (.readByte _ _) fun cmd _ => ?_
  split
  · exact reply_memSafe g.inv hp hl
  split
  · exact .bind ((Edit.sendBytes (g.inv.server_fd_lt hp) _ _ _).teardown_memSafe g.inv hp alone) fun _ _ => .ok _
  · refine .bind (connectRequest_memSafe cfg g.inv hp alone (hl.symm.trans alone)) fun ⟨res, s₂⟩ conn => ?_
    obtain ⟨g₂, paired⟩ := connectRequest_good cfg g hp alone (hl.symm.trans alone) conn
    cases res with
    | none => exact .ok _
    | some l' =>
      obtain ⟨sv', hp', hl', -⟩ := paired l' rfl
      exact reply_memSafe g₂.inv hp' hl'

/-- The two passes `server_recv_cb` makes: the stage-1 pass hands the stage-5 pass a state whose
server record is paired as its locals say. -/
theorem twoPasses_memSafe {l : Locals} (g : Good s) (staged : Staged s) (hp : s.servers p = some sv)
    (hl : sv.remote = l.remote) (owner : l.bufOwner = l.remote) : MemSafe (twoPasses cipher cfg p io l s) := by
  simp only [twoPasses, State.server?_of hp, ok_bind]
  split
  · exact relayUp_memSafe cipher g.inv hp hl _
  split
  · exact greet_memSafe hp
  have stage1 : sv.stage = 1 := by
    have := staged p sv.stage (State.stageOf_of hp)
    omega
  refine .bind (request_memSafe cfg g hp stage1 hl owner) fun pass hr => ?_
  cases pass with
  | done s₁ => exact .ok _
  | again l₁ s₁ =>
    obtain ⟨g₁, sv₁, hp₁, hl₁⟩ := request_good cfg g hp stage1 hl hr
    exact relayUp_memSafe cipher g₁.inv hp₁ hl₁ _

theorem bufferOf_memSafe (inv : Inv s) (hp : s.servers p = some sv) : MemSafe (bufferOf s p sv.remote) := by
  cases hr : sv.remote with
  | none => exact .bind (.server? (by simp [hp])) fun _ _ => .deref _
  | some q =>
    obtain ⟨rm, hq, -⟩ := inv.wf.pair p sv q hp hr
    exact .bind (.remote? (by simp [hq])) fun _ _ => .deref _

theorem setBuffer_memSafe {b : Buf} (inv : Inv s) (hp : s.servers p = some sv) :
    MemSafe (setBuffer s p sv.remote b) := by
  cases hr : sv.remote with
  | none => exact .bind (.server? (by simp [hp])) fun _ _ => .ok _
  | some q =>
    obtain ⟨rm, hq, -⟩ := inv.wf.pair p sv q hp hr
    exact .bind (.remote? (by simp [hq])) fun _ _ => .ok _

theorem serverRecvCb_memSafe (g : Good s) (staged : Staged s) (hp : s.servers p = some sv) :
    MemSafe (serverRecvCb cipher cfg p io s) := by
  simp only [serverRecvCb, State.server?_of hp, ok_bind]
  split
  · exact .ok _
  · exact g.inv.teardown_memSafe hp rfl
  next bytes _ =>
  by_cases empty : bytes.take bufSize = []
  · simp only [empty, if_true]
    exact g.inv.teardown_memSafe hp rfl
  simp only [empty, if_false]
  refine .bind (bufferOf_memSafe g.inv hp) fun b hb => .bind (.store _ _ _) fun b' stored =>
    .bind (setBuffer_memSafe g.inv hp) fun u set => ?_
  have c : Calm s (u.emit (.recv sv.fd (bytes.take bufSize))) :=
    (setBuffer_calm g ⟨sv, hp, rfl⟩ hb stored set).thenEmit (e := .recv sv.fd (bytes.take bufSize))
      (g.inv.server_fd_lt hp) silent_recv
  obtain ⟨sv', hp', same⟩ := c.edit.server hp
  have staged' : Staged (u.emit (.recv sv.fd (bytes.take bufSize))) :=
    ((setBuffer_keeps set).trans (Keeps.of_eq rfl)).staged staged
  have loop : ∀ l, serverRecvLoop cipher cfg p io 2 l _ = twoPasses cipher cfg p io l _ := fun _ =>
    serverRecvLoop_two cipher cfg 0 staged'
  rw [loop]
  exact twoPasses_memSafe cipher cfg (c.good g) staged' hp' (congrArg (fun x => x.2.1) same) rfl

end Handshake

section Reactor

variable (cipher : Cipher σ) (cfg : Config) {s : State σ}

/-- A started watcher's owner is live, so its callback reads no freed record. -/
theorem dispatch_memSafe {w : Watcher} {io : Io} (g : Good s) (staged : Staged s) (active : s.active w = true) :
    MemSafe (dispatch cipher cfg w io s) := by
  have live := g.inv.wf.armed w active
  cases w with
  | serverRecv p =>
    obtain ⟨sv, hp⟩ := Option.isSome_iff_exists.1 live
    exact serverRecvCb_memSafe cipher cfg g staged hp
  | serverSend p =>
    obtain ⟨sv, hp⟩ := Option.isSome_iff_exists.1 live
    exact serverSendCb_memSafe g.inv hp
  | remoteRecv q =>
    obtain ⟨rm, hq⟩ := Option.isSome_iff_exists.1 live
    exact remoteRecvCb_memSafe cipher cfg g.inv hq
  | remoteSend q =>
    obtain ⟨rm, hq⟩ := Option.isSome_iff_exists.1 live
    exact remoteSendCb_memSafe g.inv hq
  | connectTimer q =>
    obtain ⟨rm, hq⟩ := Option.isSome_iff_exists.1 live
    exact remoteTimeoutCb_memSafe ((Edit.stop _).inv g.inv) (by simpa using hq)
  | idleTimer q =>
    obtain ⟨rm, hq⟩ := Option.isSome_iff_exists.1 live
    exact remoteTimeoutCb_memSafe ((Edit.timerAgain _ live).inv g.inv) (by simpa using hq)

theorem tick_memSafe (reach : Reachable cipher cfg s) (t : Tick) (io : Io) : MemSafe (tick cipher cfg t io s) := by
  cases t with
  | accept => exact .ok _
  | fire w =>
    simp only [tick]
    split
    · exact dispatch_memSafe cipher cfg (reachable_good cipher cfg reach) (reachable_staged cipher cfg reach) ‹_›
    · exact .ok _

theorem run_memSafe (reach : Reachable cipher cfg s) (l : List (Tick × Io)) : MemSafe (run cipher cfg l s) := by
  induction l generalizing s with
  | nil => exact .ok _
  | cons step rest ih =>
    obtain ⟨t, io⟩ := step
    exact .bind (tick_memSafe cipher cfg reach t io) fun _ h => ih (.step reach (.tick t io h))

/-- Memory safety of the event loop: whatever the schedule of accepts and watcher events and
whatever the system calls and collaborators answer, no run from the start reads a freed endpoint
record or frees a block twice. -/
theorem run_never_dangles (l : List (Tick × Io)) : run cipher cfg l (initial cfg.fastOpen) ≠ .error .dangling :=
  run_memSafe cipher cfg .init l

end Reactor

end Shadowsocks.Local
