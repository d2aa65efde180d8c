import ShadowsocksLocal.Relay

/-! Every step keeps `Good`: the handshake side of `server_recv_cb`, `accept_cb`, the CONNECT
branch that pairs a server with its remote, and the reactor. So every reachable state has the
session structure, the teardown of any live session removes exactly its two endpoints, and each
client has been sent, in order, what the relay handed towards it. -/
namespace Shadowsocks.Local

variable {σ : Type} {s u s' : State σ} {p q : Ptr} {sv : Server σ} {rm : Remote}

section Steps

variable (cipher : Cipher σ) (cfg : Config) {io : Io}

theorem acceptCb_good (g : Good s) : Good (acceptCb cipher cfg s io) := by
  unfold acceptCb
  split
  · by_cases m : cfg.method = 0
    · simp only [newServer, m, ne_eq, not_true_eq_false, if_false]
      refine @Good.addServer σ s _ (s.next + 1)
        ⟨s.next, some ⟨s.next + 2, bufSize, io.fresh⟩, 0, 0, 0, none, none, s.next + 3, s.next + 4, none⟩ g
        ?_ ?_ ?_ ?_ ?_ ?_ ?_ ?_ ?_ ?_ ?_ ?_ ?_ ?_
      all_goals simp [Function.update_apply, Server.blocks, Nat.add_assoc]
      all_goals first | omega | exact fun _ => or_comm | exact fun b => by cases s.heap b <;> simp; dsimp only [Ptr]; omega
    · simp only [newServer, m, ne_eq, not_false_eq_true, if_true]
      refine @Good.addServer σ s _ (s.next + 1)
        ⟨s.next, some ⟨s.next + 2, bufSize, io.fresh⟩, 0, 0, 0, some (s.next + 5, cipher.init true),
          some (s.next + 6, cipher.init false), s.next + 3, s.next + 4, none⟩ g
        ?_ ?_ ?_ ?_ ?_ ?_ ?_ ?_ ?_ ?_ ?_ ?_ ?_ ?_
      all_goals simp [Function.update_apply, Server.blocks, Nat.add_assoc]
      all_goals first | omega | exact fun _ => or_comm | exact fun b => by cases s.heap b <;> simp; dsimp only [Ptr]; omega
  · exact g

/-- `close_and_free_server` of a server whose stage was just set ends its session. -/
theorem closeAndFreeServer_restaged_good (g : Good u) (hp : u.servers p = some sv) (alone : sv.remote = none)
    (stage : Nat) (h : (u.setServer p { sv with stage := stage }).closeAndFreeServer (some p) = .ok s') :
    Good s' := by
  obtain ⟨live, nd⟩ := g.inv.owns.server_blocks hp
  rw [@State.closeAndFreeServer_ok σ (u.setServer p { sv with stage := stage }) p { sv with stage := stage }
    (by simp) live nd alone,
    @State.dropServer_eq_remove σ (u.setServer p { sv with stage := stage }) p _ g.inv.wf.nodup (by simp),
    @State.remove_setServer σ u _ p sv { sv with stage := stage } hp rfl rfl (by simp)] at h
  cases h
  refine ⟨remove_inv g.inv fun x sv' q hx hq => ?_, (Quiet.remove _).down g.down⟩
  have : x ≠ p := by rintro rfl; simp_all
  simp only [List.mem_singleton, Endpoint.server.injEq, this, false_iff, reduceCtorEq, not_false_eq_true]

/-- The CONNECT branch keeps `Good`; when the session goes on, the locals name the remote the
server record now holds, and its window is still empty. -/
theorem connectRequest_good {l : Locals} {b : Buf} {res : Option Locals} (g : Good s)
    (hp : s.servers p = some sv) (alone : sv.remote = none) (hl : l.remote = none)
    (h : connectRequest cfg p io l b s = .ok (res, s')) :
    Good s' ∧ ∀ l', res = some l' → ∃ sv' ∈ s'.servers p, sv'.remote = l'.remote ∧ sv'.bufLen = 0 := by
  have empty := g.down.unpaired p sv hp alone
  have g₁ : Good s.malloc.2 := g.malloc
  have hp₁ : s.malloc.2.servers p = some sv := hp
  simp only [connectRequest, bind_eq_ok] at h
  obtain ⟨atyp, -, header?, -, h⟩ := h
  rcases header? with _ | ⟨header, host, service⟩
  · obtain ⟨s'', down, h⟩ := bind_eq_ok.1 h
    simp only [pure_eq_ok, Prod.mk.injEq] at h
    obtain ⟨rfl, rfl⟩ := h
    rw [hl, ← alone] at down
    exact ⟨g₁.teardown hp₁ rfl down, by simp⟩
  · simp only [State.server?_of hp₁, ok_bind] at h
    obtain ⟨⟨remote, s₃⟩, hc, h⟩ := bind_eq_ok.1 h
    obtain ⟨_, -, h⟩ := bind_eq_ok.1 h
    rcases connectToRemote_cases cfg hc with ⟨rfl, rfl | rfl⟩ | ⟨rfl, rfl⟩
    · obtain ⟨s'', down, h⟩ := bind_eq_ok.1 h
      simp only [pure_eq_ok, Prod.mk.injEq] at h
      obtain ⟨rfl, rfl⟩ := h
      exact ⟨closeAndFreeServer_restaged_good g₁ hp₁ alone 5 down, by simp⟩
    · obtain ⟨s'', down, h⟩ := bind_eq_ok.1 h
      simp only [pure_eq_ok, Prod.mk.injEq] at h
      obtain ⟨rfl, rfl⟩ := h
      exact ⟨closeAndFreeServer_restaged_good g₁.mallocFree hp₁ alone 5 down, by simp⟩
    · simp only [State.remote?, State.setRemote_remotes, Function.update_same, ok_bind, deref] at h
      obtain ⟨⟨rb', r'⟩, chunk, h⟩ := bind_eq_ok.1 h
      simp only [State.server?, State.setRemote_servers, State.malloc_snd_servers, State.openFd_snd_servers,
        State.setServer_servers, Function.update_same, ok_bind, pure_eq_ok, Prod.mk.injEq] at h
      obtain ⟨rfl, rfl⟩ := h
      have ptr := firstChunk_ptr chunk
      refine ⟨@Good.attach σ s.malloc.2 _ p (s.malloc.2.next + 2) sv
        ⟨s.malloc.2.next + 1, some rb', 0, 0, cfg.acl && (atyp == 1 && io.aclIp || atyp == 3 && io.aclDomain), false,
          s.malloc.2.next + 4, s.malloc.2.next + 5, some s.malloc.2.next, some p⟩
        { sv with stage := 5, remote := some (s.malloc.2.next + 2) }
        g₁ hp₁ alone ?_ ?_ ?_ ?_ ?_ ?_ ?_ ?_ ?_ ?_ ?_ rfl rfl rfl rfl rfl rfl rfl, by simp [empty]⟩
      all_goals simp [Function.update_apply, Remote.blocks, ptr, Nat.add_assoc]
      all_goals first | omega | (intro x; split_ifs <;> rfl) | exact fun _ => or_comm |
        exact fun b => by cases s.heap b <;> simp; dsimp only [Ptr]; omega

theorem greet_good (g : Good s) (hp : s.servers p = some sv) (stage0 : sv.stage = 0)
    (h : greet p io s = .ok s') : Good s' := by
  simp only [greet, State.server?_of hp, ok_bind, pure_eq_ok] at h
  subst h
  exact ((Calm.sendBytes (g.inv.server_fd_lt hp) (fun _ => silent_reply (by decide)) _ _).trans
    (Calm.setServer (by simpa using hp) (by simp [Server.shape, Server.blocks, stage0]) (by rfl) (by rfl))).good g

/-- What a pass of the loop leaves: `Good` and, when the loop goes round, locals whose `remote`
is the server's. -/
def PassOk (p : Ptr) : Pass σ → Prop
  | .done s => Good s
  | .again l s => Good s ∧ ∃ sv ∈ s.servers p, sv.remote = l.remote

theorem reply_good {udp : Bool} {addr : List Byte} {l : Locals} {pass : Pass σ} (g : Good s)
    (hp : s.servers p = some sv) (hl : sv.remote = l.remote) (empty : sv.bufLen = 0)
    (h : reply p io udp addr l s = .ok pass) : PassOk p pass := by
  simp only [reply, State.server?_of hp, ok_bind] at h
  obtain ⟨sb, hsb, h⟩ := bind_eq_ok.1 h
  obtain ⟨sb', stored, h⟩ := bind_eq_ok.1 h
  have c₁ : Calm s (s.setServer p { sv with buf := some sb' }) :=
    Calm.refill hp (by simp [Server.shape, Server.blocks, deref_eq_ok.1 hsb, Buf.store_ptr stored]) (by rfl) empty
  obtain ⟨⟨res, s₁⟩, sent, h⟩ := bind_eq_ok.1 h
  have g₂ := (c₁.trans (Calm.send (c₁.edit.next ▸ g.inv.server_fd_lt hp) (fun _ => silent_reply (by decide))
    sent)).good g
  have hp₂ : s₁.servers p = some { sv with buf := some sb' } := by simp [State.send_servers sent]
  split at h
  · obtain ⟨s₂, down, h⟩ := bind_eq_ok.1 h
    obtain rfl := pure_eq_ok.1 h
    exact g₂.teardown hp₂ hl down
  simp only [pure_bind] at h
  split at h
  · obtain ⟨s₂, down, h⟩ := bind_eq_ok.1 h
    obtain rfl := pure_eq_ok.1 h
    exact g₂.teardown hp₂ hl down
  · obtain rfl := pure_eq_ok.1 h
    exact ⟨g₂, _, hp₂, hl⟩

theorem request_good {l : Locals} {pass : Pass σ} (g : Good s) (hp : s.servers p = some sv)
    (stage1 : sv.stage = 1) (hl : sv.remote = l.remote) (h : request cfg p io l s = .ok pass) :
    PassOk p pass := by
  simp only [request, State.server?_of hp, ok_bind] at h
  obtain ⟨b, -, h⟩ := bind_eq_ok.1 h
  obtain ⟨cmd, -, h⟩ := bind_eq_ok.1 h
  have alone : sv.remote = none := by
    cases hr : sv.remote with
    | none => rfl
    | some q => simp [(g.inv.wf.stage p sv hp).1 (by simp [hr])] at stage1
  split at h
  · exact reply_good g hp hl (g.down.unpaired p sv hp alone) h
  split at h
  · obtain ⟨s₂, down, h⟩ := bind_eq_ok.1 h
    obtain rfl := pure_eq_ok.1 h
    exact ((Calm.sendBytes (g.inv.server_fd_lt hp) (fun _ => silent_reply (by decide)) _ _).good g).teardown
      (by simpa using hp) hl down
  · obtain ⟨⟨res, s₂⟩, conn, h⟩ := bind_eq_ok.1 h
    obtain ⟨g₂, paired⟩ := connectRequest_good cfg g hp alone (hl.symm.trans alone) conn
    cases res with
    | none =>
      obtain rfl := pure_eq_ok.1 h
      exact g₂
    | some l' =>
      obtain ⟨sv', hp', hl', empty⟩ := paired l' rfl
      exact reply_good g₂ hp' hl' empty h

theorem serverRecvLoop_good {fuel : Nat} {l : Locals} (g : Good s) (hl : ∃ sv ∈ s.servers p, sv.remote = l.remote)
    (h : serverRecvLoop cipher cfg p io fuel l s = .ok s') : Good s' := by
  induction fuel generalizing l s with
  | zero => cases h
  | succ fuel ih =>
    obtain ⟨sv, hp, h⟩ := bind_eq_ok.1 h
    replace hp := State.server?_eq_ok.1 hp
    obtain ⟨sv₀, hp₀, hl⟩ := hl
    obtain rfl := Option.some.inj (hp.symm.trans hp₀)
    split at h
    · exact relayUp_good cipher g hp hl h
    split at h
    · exact greet_good g hp ‹_› h
    split at h
    · obtain ⟨pass, hr, h⟩ := bind_eq_ok.1 h
      have ok := request_good cfg g hp ‹_› hl hr
      cases pass with
      | done s₁ =>
        obtain rfl := pure_eq_ok.1 h
        exact ok
      | again l₁ s₁ => exact ih ok.1 ok.2 h
    · exact ih g ⟨sv, hp, hl⟩ h

/-- Storing what the client sent: into the remote's buffer at stage 5, into the server's own
buffer before, whose window is then empty. -/
theorem setBuffer_calm {owner : Option Ptr} {b b' : Buf} {bytes : List Byte} (g : Good s)
    (hl : ∃ sv ∈ s.servers p, sv.remote = owner) (hb : bufferOf s p owner = .ok b)
    (stored : b.store 0 bytes = .ok b') (h : setBuffer s p owner b' = .ok u) : Calm s u := by
  cases owner with
  | none =>
    obtain ⟨sv, hp, hb⟩ := bind_eq_ok.1 hb
    replace hp := State.server?_eq_ok.1 hp
    obtain ⟨sv', hp', h⟩ := bind_eq_ok.1 h
    obtain rfl := Option.some.inj (hp.symm.trans (State.server?_eq_ok.1 hp'))
    obtain rfl := pure_eq_ok.1 h
    obtain ⟨sv₀, hp₀, alone⟩ := hl
    obtain rfl := Option.some.inj (hp.symm.trans hp₀)
    exact Calm.refill hp (by simp [Server.shape, Server.blocks, deref_eq_ok.1 hb, Buf.store_ptr stored]) (by rfl)
      (g.down.unpaired p sv hp alone)
  | some q =>
    obtain ⟨rm, hq, hb⟩ := bind_eq_ok.1 hb
    replace hq := State.remote?_eq_ok.1 hq
    obtain ⟨rm', hq', h⟩ := bind_eq_ok.1 h
    obtain rfl := Option.some.inj (hq.symm.trans (State.remote?_eq_ok.1 hq'))
    obtain rfl := pure_eq_ok.1 h
    exact Calm.setRemote hq (by simp [Remote.shape, Remote.blocks, deref_eq_ok.1 hb, Buf.store_ptr stored]) rfl

theorem serverRecvCb_good (g : Good s) (h : serverRecvCb cipher cfg p io s = .ok s') : Good s' := by
  obtain ⟨sv, hp, h⟩ := bind_eq_ok.1 h
  replace hp := State.server?_eq_ok.1 hp
  split at h
  · obtain rfl := pure_eq_ok.1 h
    exact g
  · exact g.teardown hp rfl h
  next bytes _ =>
  by_cases empty : bytes.take bufSize = []
  · simp only [empty, if_true] at h
    exact g.teardown hp rfl h
  simp only [empty, if_false] at h
  obtain ⟨b, hb, h⟩ := bind_eq_ok.1 h
  obtain ⟨b', stored, h⟩ := bind_eq_ok.1 h
  obtain ⟨u, set, h⟩ := bind_eq_ok.1 h
  have c : Calm s (u.emit (.recv sv.fd (bytes.take bufSize))) :=
    (setBuffer_calm g ⟨sv, hp, rfl⟩ hb stored set).thenEmit (e := .recv sv.fd (bytes.take bufSize))
      (g.inv.server_fd_lt hp) silent_recv
  obtain ⟨sv', hp', same⟩ := c.edit.server hp
  exact serverRecvLoop_good cipher cfg (c.good g) ⟨sv', hp', congrArg (fun x => x.2.1) same⟩ h

theorem dispatch_good {w : Watcher} (g : Good s) (active : s.active w = true)
    (h : dispatch cipher cfg w io s = .ok s') : Good s' := by
  cases w with
  | serverRecv p => exact serverRecvCb_good cipher cfg g h
  | serverSend p => exact serverSendCb_good g h
  | remoteRecv q => exact remoteRecvCb_good cipher cfg g active h
  | remoteSend q => exact remoteSendCb_good g h
  | connectTimer q => exact remoteTimeoutCb_good ((Calm.stop _).good g) h
  | idleTimer q => exact remoteTimeoutCb_good ((Calm.timerAgain _ (g.inv.wf.armed _ active)).good g) h

theorem tick_good {t : Tick} (g : Good s) (h : tick cipher cfg t io s = .ok s') : Good s' := by
  cases t with
  | accept =>
    cases h
    exact acceptCb_good cipher cfg g
  | fire w =>
    simp only [tick] at h
    split at h
    · exact dispatch_good cipher cfg g ‹_› h
    · cases h
      exact g

end Steps

section Reachable

variable (cipher : Cipher σ) (cfg : Config)

theorem reachable_good (reach : Reachable cipher cfg s) : Good s := by
  induction reach with
  | init => exact ⟨initial_inv _, initial_down _⟩
  | step _ step ih =>
    cases step with
    | tick t io h => exact tick_good cipher cfg ih h

end Reachable

/-- A removal frees exactly the blocks of the removed endpoints. -/
theorem State.remove_heap_owned {es : List Endpoint} {e : Endpoint} {b : Ptr} (own : Owns s)
    (m : b ∈ s.owned e) : (s.remove es).heap b = true ↔ e ∉ es := by
  simp only [State.remove_heap, release_apply, own.live e b m, Bool.true_and, Bool.not_eq_true',
    decide_eq_false_iff_not, List.mem_flatMap, not_exists, not_and]
  refine ⟨fun keep gone => keep e gone m, fun kept e' gone m' => ?_⟩
  exact own.disjoint e e' (by rintro rfl; exact kept gone) b m m'

/-- A removal closes exactly the descriptors of the removed endpoints. -/
theorem State.remove_fds_owned {es : List Endpoint} {e : Endpoint} {fd : Fd} (own : Owns s)
    (h : s.fdOf e = some fd) : (s.remove es).fds fd = true ↔ e ∉ es := by
  simp only [State.remove_fds, own.fdOpen e fd h, Bool.true_and, Bool.not_eq_true', decide_eq_false_iff_not,
    not_exists, not_and]
  refine ⟨fun keep gone => keep e gone h, fun kept e' gone h' => ?_⟩
  exact own.fdDistinct e e' fd (by rintro rfl; exact kept gone) h h'

/-- The teardown of every live session succeeds and removes exactly that session: its records,
blocks and descriptors go, and every other endpoint keeps its record, blocks and descriptor. -/
def TeardownExact (s : State σ) : Prop :=
  ∀ p sv, s.servers p = some sv → ∃ s', s.teardown sv.remote (some p) = .ok s' ∧
    (∀ x, s'.servers x = if x = p then none else s.servers x) ∧
    (∀ y, s'.remotes y = if sv.remote = some y then none else s.remotes y) ∧
    (∀ e b, b ∈ s.owned e → (s'.heap b = true ↔ e ∉ sv.session p)) ∧
    (∀ e fd, s.fdOf e = some fd → (s'.fds fd = true ↔ e ∉ sv.session p))

theorem Inv.teardownExact (inv : Inv s) : TeardownExact s := by
  refine fun p sv hp => ⟨_, teardown_ok inv hp, fun x => ?_, fun y => ?_,
    fun e b m => State.remove_heap_owned inv.owns m, fun e fd h => State.remove_fds_owned inv.owns h⟩
  · simp [Server.session]
  · cases hr : sv.remote <;> simp [Server.session, hr, eq_comm]

end Shadowsocks.Local
