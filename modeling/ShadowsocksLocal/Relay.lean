import ShadowsocksLocal.ReturnPath

/-! The relay callbacks keep `Good`. Everything they do upstream, and every client-side step
that leaves the return path alone, is a `Calm` edit. What `deliver` and `server_send_cb` do to
the window of `server->buf` is `Down.window`, and a completed connect is `Down.connect`. -/
namespace Shadowsocks.Local

variable {σ : Type} {s u v s' : State σ} {p q : Ptr} {sv : Server σ} {rm : Remote}

theorem Edit.thenEmit {e : Event} (c : Edit s u) (lt : e.fd < s.next) : Edit s (u.emit e) :=
  c.trans (Edit.emit (c.next ▸ lt))

theorem State.send_servers {fd : Fd} {site : Site} {b : Buf} {idx len : Int} {res : Send}
    {x : Except Errno Nat} (h : s.send fd site b idx len res = .ok (x, s')) : s'.servers = s.servers := by
  simpa using congrArg (fun r => r.2.servers) (State.send_eq_ok h).2.2.2

theorem State.send_remotes {fd : Fd} {site : Site} {b : Buf} {idx len : Int} {res : Send}
    {x : Except Errno Nat} (h : s.send fd site b idx len res = .ok (x, s')) : s'.remotes = s.remotes := by
  simpa using congrArg (fun r => r.2.remotes) (State.send_eq_ok h).2.2.2

section Callbacks

variable (cipher : Cipher σ) (cfg : Config) {io : Io}

/-- `deliver` after `remote_recv_cb` handed `plain`, the first `r` bytes of `server->buf`, to the
client's direction: the window was empty and the remote was receiving. -/
theorem deliver_good {r : Int} {B : Buf} {before plain : List Byte} (g : Good v) (sv : Server σ)
    (hp : v.servers p = some sv) (hq : v.remotes q = some rm) (back : rm.server = some p)
    (listening : v.active (.remoteRecv q) = true) (hb : sv.buf = some B) (window : B.slice 0 r.toNat = plain)
    (h : deliver p q io r (v.emit (.hand sv.fd before plain)) = .ok s') : Good s' := by
  have paired := g.inv.paired hq back hp
  have connected := g.down.listening q rm hq listening
  have empty := g.down.drained q rm p sv hq back hp (.inl listening)
  have lt := g.inv.server_fd_lt hp
  obtain ⟨sv₁, hp₁, h⟩ := bind_eq_ok.1 h
  obtain rfl : sv = sv₁ := Option.some.inj (hp.symm.trans (State.server?_eq_ok.1 hp₁))
  obtain ⟨b, hb₁, h⟩ := bind_eq_ok.1 h
  obtain rfl : B = b := Option.some.inj (hb.symm.trans (deref_eq_ok.1 hb₁))
  obtain ⟨a, sent, h⟩ := bind_eq_ok.1 h
  -- `k` of the `r` bytes reached the client, the rest wait in the window
  have park : ∀ {w : State σ} (k : Nat), (k : Int) ≤ r → Edit v w → w.servers = v.servers →
      w.remotes = v.remotes → w.active = v.active →
      (∀ f, w.relayed f = v.relayed f ++ if sv.fd = f then plain.take k else []) →
      (∀ f, w.handed f = v.handed f ++ if sv.fd = f then plain else []) →
      Good (((w.setServer p { sv with bufLen := r - k, bufIdx := k }).stop (.remoteRecv q)).start
        (.serverSend p)) := by
    intro w k within e servers remotes active relayed handed
    have rest : B.slice (k : Int).toNat (r - k).toNat = plain.drop k := by
      rw [show (k : Int).toNat = 0 + k by omega, show (r - k).toNat = r.toNat - k by omega,
        Buf.slice_drop _ _ _ _ (by omega), window]
    refine ⟨(((e.trans (Edit.setServer (servers ▸ hp) (by rfl))).trans (Edit.stop _)).trans
      (Edit.start (by simp [State.isLive, Watcher.owner, servers, hp]))).inv g.inv,
      g.down.window g.inv hp paired hq connected { sv with bufLen := r - k, bufIdx := k }
        (fun x => by simp [Function.update_apply, servers]) remotes rfl rfl relayed handed ?_ (fun y a => ?_)
        (fun a => by simp at a)⟩
    · rw [Server.pending_eq_nil empty, List.nil_append]
      simp only [Server.pending, hb, rest, List.take_append_drop]
    · by_cases hy : y = q
      · exact .inr hy
      · exact .inl (by simpa [Function.update_apply, hy, active] using a)
  split at h
  · obtain rfl := State.send_error sent
    obtain rfl := pure_eq_ok.1 h
    simpa using park 0 (State.send_eq_ok sent).2.1 (Edit.emit (e := .hand sv.fd before plain) lt) rfl rfl rfl
      (fun f => by simp [Event.relayedOn]) (fun f => by simp [Event.handedOn])
  · obtain rfl := State.send_error sent
    exact g.teardown_emit hp paired (by rfl) h
  next k _ =>
    obtain ⟨-, nonneg, within, rfl⟩ := State.send_accept sent
    simp only [Int.toNat_zero, window] at h
    have e : Edit v (((v.emit (.hand sv.fd before plain))).emit (.send sv.fd .relay (plain.take k))) :=
      (Edit.emit (e := .hand sv.fd before plain) lt).thenEmit lt
    split at h <;> obtain rfl := pure_eq_ok.1 h
    · exact park _ (by omega) e rfl rfl rfl (fun f => by simp [Event.relayedOn])
        (fun f => by simp [Event.handedOn])
    · rename_i whole
      have all : plain.take k = plain := List.take_of_length_le (by rw [← window]; simp; omega)
      refine ⟨e.inv g.inv, g.down.window g.inv hp paired hq connected sv
        (fun x => by by_cases e : x = p <;> simp [e, hp]) rfl rfl rfl (R := plain) (H := plain)
        (fun f => by simp [Event.relayedOn, all]) (fun f => by simp [Event.handedOn])
        (by simp [Server.pending_eq_nil empty]) (fun y a => .inl a) (fun _ => empty)⟩

theorem serverSendCb_good (g : Good s) (h : serverSendCb p io s = .ok s') : Good s' := by
  obtain ⟨sv, hp, h⟩ := bind_eq_ok.1 h
  replace hp := State.server?_eq_ok.1 hp
  split at h
  · exact g.teardown hp rfl h
  rename_i busy
  obtain ⟨q, rm, paired, hq, -, connected, quiet⟩ := g.waiting hp busy
  have lt := g.inv.server_fd_lt hp
  obtain ⟨b, hb, h⟩ := bind_eq_ok.1 h
  replace hb := deref_eq_ok.1 hb
  obtain ⟨a, sent, h⟩ := bind_eq_ok.1 h
  split at h
  · obtain rfl := (State.send_error sent).symm
    split at h
    · exact g.teardown hp rfl h
    · obtain rfl := pure_eq_ok.1 h
      exact g
  next k _ =>
  obtain ⟨start, -, within, rfl⟩ := State.send_accept sent
  have window : b.slice sv.bufIdx.toNat sv.bufLen.toNat = sv.pending := by simp [Server.pending, hb]
  rw [window] at h
  have e : Edit s (s.emit (.send sv.fd .relay (sv.pending.take k))) := Edit.emit lt
  have relayed : ∀ f, (s.emit (.send sv.fd .relay (sv.pending.take k))).relayed f =
      s.relayed f ++ if sv.fd = f then sv.pending.take k else [] := fun f => by simp [Event.relayedOn]
  have handed : ∀ f, (s.emit (.send sv.fd .relay (sv.pending.take k))).handed f =
      s.handed f ++ if sv.fd = f then [] else [] := fun f => by simp [Event.handedOn]
  split at h
  · -- a short send: the window moves on by `k`
    obtain rfl := pure_eq_ok.1 h
    refine ⟨(e.trans (Edit.setServer hp (by rfl))).inv g.inv, g.down.window g.inv hp paired hq connected
      { sv with bufLen := sv.bufLen - k, bufIdx := sv.bufIdx + k } (fun x => by simp [Function.update_apply])
      rfl rfl rfl relayed handed ?_ (fun y a => .inl a) (fun a => by simp [quiet] at a)⟩
    have rest : b.slice (sv.bufIdx + k).toNat (sv.bufLen - k).toNat = sv.pending.drop k := by
      rw [show (sv.bufIdx + k).toNat = sv.bufIdx.toNat + k by omega,
        show (sv.bufLen - k).toNat = sv.bufLen.toNat - k by omega, Buf.slice_drop _ _ _ _ within,
        window]
    simp only [Server.pending, hb, rest, List.take_append_drop, List.append_nil]
  · -- the whole window went: the remote may receive again
    rename_i whole
    obtain ⟨q', hq', h⟩ := bind_eq_ok.1 h
    obtain rfl : q = q' := Option.some.inj (paired.symm.trans (deref_eq_ok.1 hq'))
    obtain ⟨rm', -, h⟩ := bind_eq_ok.1 h
    obtain rfl := pure_eq_ok.1 h
    have all : sv.pending.take k = sv.pending := List.take_of_length_le (by rw [← window, Buf.length_slice]; omega)
    refine ⟨(((e.trans (Edit.setServer hp (by rfl))).trans (Edit.stop _)).trans
      (Edit.start (w := .remoteRecv q) ?_)).inv g.inv,
      g.down.window g.inv hp paired hq connected { sv with bufLen := 0, bufIdx := 0 }
        (fun x => by simp [Function.update_apply]) rfl rfl rfl relayed handed
        (by simp [all, Server.pending_eq_nil]) (fun y a => ?_) (fun _ => rfl)⟩
    · simp [State.isLive, Watcher.owner, hq]
    by_cases e : y = q
    · exact .inr e
    · exact .inl (by simpa [Function.update_apply, e] using a)

theorem remoteRecvCb_good (g : Good s) (active : s.active (.remoteRecv q) = true)
    (h : remoteRecvCb cipher cfg q io s = .ok s') : Good s' := by
  obtain ⟨rm, hq, h⟩ := bind_eq_ok.1 h
  replace hq := State.remote?_eq_ok.1 hq
  have c₁ : Calm s (s.timerAgain (.idleTimer q) (idleRepeat cfg)) :=
    Calm.timerAgain _ (by simp [State.isLive, hq])
  obtain ⟨p, back, h⟩ := bind_eq_ok.1 h
  obtain ⟨sv, hp, h⟩ := bind_eq_ok.1 h
  replace hp : s.servers p = some sv := by simpa using hp
  replace back := deref_eq_ok.1 back
  have paired := g.inv.paired hq back hp
  have empty := g.down.drained q rm p sv hq back hp (.inl active)
  split at h
  · obtain rfl := pure_eq_ok.1 h
    exact c₁.good g
  · exact c₁.teardown_remote_good g hq back h
  next bytes _ =>
  by_cases nil : bytes.take bufSize = []
  · simp only [nil, if_true] at h
    exact c₁.teardown_remote_good g hq back h
  simp only [nil, if_false] at h
  obtain ⟨b, hb, h⟩ := bind_eq_ok.1 h
  obtain ⟨b', stored, h⟩ := bind_eq_ok.1 h
  replace hb := deref_eq_ok.1 hb
  have c₂ : Calm s (((s.timerAgain (.idleTimer q) (idleRepeat cfg)).setServer p { sv with buf := some b' }).emit
      (.recv rm.fd (bytes.take bufSize))) :=
    (c₁.trans (Calm.refill (by simpa using hp)
      (by simp [Server.shape, Server.blocks, hb, Buf.store_ptr stored]) (by rfl) empty)).thenEmit
      (e := .recv rm.fd (bytes.take bufSize)) (g.inv.remote_fd_lt hq) silent_recv
  have empty₂ : ({ sv with buf := some b' } : Server σ).bufLen = 0 := empty
  cases direct : rm.direct
  · simp only [direct, Bool.not_false, if_true] at h
    split at h
    · obtain ⟨u, freed, h⟩ := bind_eq_ok.1 h
      exact ((c₂.good g).dropServerBuf (by simp) rfl empty₂ freed).teardown
        (show (u.setServer p { sv with buf := none }).servers p = some { sv with buf := none } by simp) paired h
    · next plain ctx decrypted =>
      refine deliver_good (Calm.good ?_ g) { sv with buf := some (b'.load plain), dCtx := ctx } (by simp)
        (by simp [hq]) back ?_ rfl (by rw [Int.toNat_ofNat]; exact Buf.slice_load b' plain) h
      · refine c₂.trans (Calm.refill (by simp) ?_ (by rfl) empty₂)
        simp [Server.shape, Server.blocks, hb, Buf.store_ptr stored, ssDecrypt_ctx cipher decrypted]
      · simpa [State.timerAgain_active_of_ne] using active
  · simp only [direct, Bool.not_true, if_false] at h
    exact deliver_good (c₂.good g) { sv with buf := some b' } (by simp) (by simp [hq]) back
      (by simpa [State.timerAgain_active_of_ne] using active) rfl
      (by rw [Int.toNat_ofNat]; exact Buf.slice_store stored) h

theorem flushUp_good {server : Option Ptr} (g : Good s) (hq : s.remotes q = some rm)
    (back : rm.server = server) (h : flushUp q server io s = .ok s') : Good s' := by
  subst back
  obtain ⟨rm', hq', h⟩ := bind_eq_ok.1 h
  obtain rfl := Option.some.inj ((State.remote?_eq_ok.1 hq').symm.trans hq)
  split at h
  · exact (Calm.refl s).teardown_remote_good g hq rfl h
  obtain ⟨b, -, h⟩ := bind_eq_ok.1 h
  obtain ⟨a, sent, h⟩ := bind_eq_ok.1 h
  have c : ∀ {x s₁}, s.send rm'.fd .relay b rm'.bufIdx rm'.bufLen io.send = .ok (x, s₁) → Calm s s₁ :=
    fun sent => Calm.send (g.inv.remote_fd_lt hq) (fun _ => g.inv.silent_remote hq rfl) sent
  have set : ∀ {x s₁} (rm'' : Remote), s.send rm'.fd .relay b rm'.bufIdx rm'.bufLen io.send = .ok (x, s₁) →
      rm''.shape q = rm'.shape q → rm''.connected = rm'.connected → Calm s (s₁.setRemote q rm'') :=
    fun rm'' sent same conn => (c sent).trans (Calm.setRemote (by rw [State.send_remotes sent, hq]) same conn)
  split at h
  · split at h
    · exact (c sent).teardown_remote_good g hq rfl h
    · obtain rfl := pure_eq_ok.1 h
      exact (c sent).good g
  · split at h
    · obtain rfl := pure_eq_ok.1 h
      exact (set _ sent (by rfl) (by rfl)).good g
    · obtain ⟨p, -, h⟩ := bind_eq_ok.1 h
      obtain ⟨sv, hp, h⟩ := bind_eq_ok.1 h
      obtain rfl := pure_eq_ok.1 h
      exact (((set _ sent (by rfl) (by rfl)).trans (Calm.stop _)).trans
        (Calm.start (w := .serverRecv p) (State.live_of_server? hp) (by simp))).good g

theorem remoteSendCb_good (g : Good s) (h : remoteSendCb q io s = .ok s') : Good s' := by
  obtain ⟨rm, hq, h⟩ := bind_eq_ok.1 h
  replace hq := State.remote?_eq_ok.1 hq
  split at h
  · rename_i unconnected
    dsimp only at h
    split at h
    · -- the connect completed: the remote is connected and may receive
      have g₁ : Good ((((s.setRemote q { rm with connected := true }).stop (.connectTimer q)).start
          (.idleTimer q)).start (.remoteRecv q)) := by
        refine ⟨(((Edit.setRemote hq (by rfl)).trans (Edit.stop _)).trans
          (Edit.start (by simp [State.isLive, Watcher.owner]))).trans
            (Edit.start (by simp [State.isLive, Watcher.owner])) |>.inv g.inv,
          g.down.connect hq (by simpa using unconnected) _ rfl rfl rfl rfl (fun y a => ?_) rfl⟩
        by_cases e : y = q
        · exact .inr e
        · exact .inl (by simpa [Function.update_apply, e] using a)
      split at h
      · obtain ⟨p, -, h⟩ := bind_eq_ok.1 h
        obtain ⟨sv, hp, h⟩ := bind_eq_ok.1 h
        obtain rfl := pure_eq_ok.1 h
        refine Calm.good ?_ g₁
        exact (Calm.stop _).trans (Calm.start (w := .serverRecv p) (State.live_of_server? hp) (by simp))
      · exact flushUp_good g₁ (show _ = some { rm with connected := true } by simp) rfl h
    · exact (Calm.refl s).teardown_remote_good g hq rfl h
  · exact flushUp_good g hq rfl h

theorem remoteTimeoutCb_good (g : Good s) (h : remoteTimeoutCb q s = .ok s') : Good s' := by
  obtain ⟨rm, hq, h⟩ := bind_eq_ok.1 h
  exact (Calm.refl s).teardown_remote_good g (State.remote?_eq_ok.1 hq) rfl h

theorem sendUp_good {r : Int} (g : Good s) (hq : s.remotes q = some rm) (back : rm.server = some p)
    (h : sendUp p q io r s = .ok s') : Good s' := by
  obtain ⟨rm', hq', h⟩ := bind_eq_ok.1 h
  obtain rfl := Option.some.inj (hq.symm.trans (State.remote?_eq_ok.1 hq'))
  have lt := g.inv.remote_fd_lt hq
  -- every `send` here writes upstream, on the remote's descriptor
  have sent : ∀ {u rm₀ x s₁} {b : Buf} {idx len : Int} {res : Send}, Calm s u → u.remotes q = some rm₀ →
      rm₀.fd = rm.fd → u.send rm.fd .relay b idx len res = .ok (x, s₁) →
      Calm s s₁ ∧ s₁.remotes q = some rm₀ := fun c hu fd sent =>
    ⟨c.trans (Calm.send (c.edit.next ▸ lt) (fun _ => (c.good g).inv.silent_remote hu fd.symm) sent),
      by rw [State.send_remotes sent, hu]⟩
  have park : ∀ {u rm₀} (rm'' : Remote) (w : Watcher), Calm s u → u.remotes q = some rm₀ →
      rm''.shape q = rm₀.shape q → rm''.connected = rm₀.connected →
      Calm s (((u.setRemote q rm'').stop w).start (.remoteSend q)) := fun rm'' w c hu same conn =>
    ((c.trans (Calm.setRemote hu same conn)).trans (Calm.stop _)).trans
      (Calm.start (by simp [State.isLive, Watcher.owner]) (by simp))
  have reset : Calm s (s.setRemote q { rm with bufIdx := 0, bufLen := r }) := Calm.setRemote hq (by rfl) rfl
  split at h
  · -- not connected yet
    rename_i unconnected
    dsimp only at h
    split at h
    · obtain rfl := pure_eq_ok.1 h
      exact (((reset.trans (Calm.stop _)).trans (Calm.start (by simp [State.isLive, Watcher.owner]) (by simp))).trans
        (Calm.start (by simp [State.isLive, Watcher.owner]) (by simp))).good g
    obtain ⟨b, -, h⟩ := bind_eq_ok.1 h
    obtain ⟨a, hs, h⟩ := bind_eq_ok.1 h
    have hu : (s.setRemote q { rm with bufIdx := 0, bufLen := r }).remotes q =
        some { rm with bufIdx := 0, bufLen := r } := by simp
    split at h
    · obtain ⟨c, hu'⟩ := sent reset hu rfl hs
      obtain rfl := pure_eq_ok.1 h
      exact (park _ _ c hu' (by rfl) (by rfl)).good g
    · obtain ⟨c, -⟩ := sent reset hu rfl hs
      split at h
      · exact (c.trans (Calm.fastOpen false)).teardown_remote_good g hq back h
      · exact c.teardown_remote_good g hq back h
    · -- the fast-open `sendto` went through: the connect is complete
      obtain ⟨c, hu'⟩ := sent reset hu rfl hs
      obtain rfl := pure_eq_ok.1 h
      have g₁ := c.good g
      refine ⟨(((c.edit.trans (Edit.setRemote hu' ?_)).trans (Edit.stop _)).trans
        (Edit.start (by simp [State.isLive, Watcher.owner]))).inv g.inv,
        g₁.down.connect hu' (by simpa using unconnected) _ rfl rfl (by split_ifs <;> rfl) rfl (fun y a => ?_) rfl⟩
      · split_ifs <;> rfl
      · by_cases e : y = q
        · exact .inr e
        · exact .inl (by simpa [Function.update_apply, e] using a)
  · -- connected: relay the window
    obtain ⟨b, -, h⟩ := bind_eq_ok.1 h
    obtain ⟨a, hs, h⟩ := bind_eq_ok.1 h
    obtain ⟨c, hu⟩ := sent (Calm.refl s) hq rfl hs
    split at h
    · obtain rfl := pure_eq_ok.1 h
      exact (park _ _ c hu (by rfl) (by rfl)).good g
    · exact c.teardown_remote_good g hq back h
    · split at h <;> obtain rfl := pure_eq_ok.1 h
      · exact (park _ _ c hu (by rfl) (by rfl)).good g
      · exact c.good g

theorem relayUp_good {remote : Option Ptr} {r : Int} (g : Good s) (hp : s.servers p = some sv)
    (hl : sv.remote = remote) (h : relayUp cipher p io remote r s = .ok s') : Good s' := by
  cases remote with
  | none => exact g.teardown hp hl h
  | some q =>
    obtain ⟨sv', hp', h⟩ := bind_eq_ok.1 h
    obtain rfl := Option.some.inj (hp.symm.trans (State.server?_eq_ok.1 hp'))
    obtain ⟨rm, hq, h⟩ := bind_eq_ok.1 h
    replace hq := State.remote?_eq_ok.1 hq
    obtain ⟨rm', hq', back⟩ := g.inv.wf.pair p sv q hp hl
    obtain rfl := Option.some.inj (hq.symm.trans hq')
    have silent : ∀ before after, Silent s (.hand rm.fd before after) := fun _ _ => g.inv.silent_remote hq rfl
    split at h
    · obtain ⟨b, hb, h⟩ := bind_eq_ok.1 h
      replace hb := deref_eq_ok.1 hb
      dsimp only at h
      split at h
      · obtain ⟨u, freed, h⟩ := bind_eq_ok.1 h
        have hp₂ : (u.setRemote q { rm with buf := none }).servers p = some sv := by
          simpa [(State.free_eq_ok.1 freed).2] using hp
        exact (g.dropRemoteBuf hq hb freed).teardown hp₂ hl h
      · next wire ctx encrypted =>
        refine sendUp_good (Calm.good ?_ g) (show _ = some { rm with buf := some (b.load wire) } by simp) back h
        refine ((Calm.setServer hp ?_ (by rfl) (by rfl)).trans
          (Calm.setRemote (by simpa using hq) ?_ (by rfl))).thenEmit (e := .hand rm.fd _ wire)
          (g.inv.remote_fd_lt hq) (silent _ _)
        · simp [Server.shape, Server.blocks, ssEncrypt_ctx cipher encrypted]
        · simp [Remote.shape, Remote.blocks, hb]
    · refine sendUp_good (Calm.good ?_ g) (show _ = some rm by simp [hq]) back h
      exact (Calm.refl s).thenEmit (g.inv.remote_fd_lt hq) (silent _ _)

end Callbacks

end Shadowsocks.Local
