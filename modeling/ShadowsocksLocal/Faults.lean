import ShadowsocksLocal.Safety

/-! Which faults a run can stop on. A callback may still look up a freed record or overrun a
buffer (`dangling`, `outOfBounds`, `badLength`), but with the ACL off and a remote server
configured it never follows a NULL pointer, never divides by zero, and never runs the loop of
`server_recv_cb` out of passes. The pointers it follows are `buf` of a live record, which
`Buffered` keeps allocated over every run because `buf` is cleared only on the way to a
teardown, and the back-pointers, which `Wf` and `Down` keep set where they are followed;
`markDirect` follows NULL only on the bypass path of the ACL. The walks need no liveness: a
lookup of a freed record is itself a checked fault, which `run_memSafe` rules out. -/
namespace Shadowsocks.Local

variable {σ : Type} {α β : Type}

/-- The faults of a record lookup and of the bounds checks on a buffer. -/
def Fault.checked : Fault → Bool
  | .dangling | .outOfBounds | .badLength => true
  | .nullDeref | .divByZero | .diverge => false

/-- `x` returns a value satisfying `post`, or stops on a checked fault. -/
def Lands (post : α → Prop) : Except Fault α → Prop
  | .ok a => post a
  | .error f => f.checked = true

/-- The state a pass of the loop of `server_recv_cb` leaves. -/
def Pass.state : Pass σ → State σ
  | .done s => s
  | .again _ s => s

/-- Every live record has its buffer: `new_server` and `new_remote` allocate it, and the
callbacks clear it only right before the teardown of its session. -/
structure Buffered (s : State σ) : Prop where
  server : ∀ p sv, s.servers p = some sv → sv.buf.isSome
  remote : ∀ q rm, s.remotes q = some rm → rm.buf.isSome

/-- Each record of `t` was a record of `s` with the same buffer: what the lifecycle functions
do to the records they do not free. -/
structure Sheds (s t : State σ) : Prop where
  servers : ∀ p sv', t.servers p = some sv' → ∃ sv, s.servers p = some sv ∧ sv'.buf = sv.buf
  remotes : ∀ q rm', t.remotes q = some rm' → ∃ rm, s.remotes q = some rm ∧ rm'.buf = rm.buf

namespace Lands

theorem bind {P : α → Prop} {Q : β → Prop} {x : Except Fault α} {f : α → Except Fault β} (hx : Lands P x)
    (hf : ∀ a, x = .ok a → P a → Lands Q (f a)) : Lands Q (x >>= f) := by
  cases x with
  | error e => exact hx
  | ok a => exact hf a rfl hx

theorem mono {P Q : α → Prop} {x : Except Fault α} (h : Lands P x) (imp : ∀ a, P a → Q a) : Lands Q x := by
  cases x with
  | error e => exact h
  | ok a => exact imp a h

theorem ok {P : α → Prop} {a : α} (h : P a) : Lands P (.ok a) := h

theorem deref {o : Option α} (live : o.isSome) : Lands (fun _ => True) (Local.deref o) := by
  obtain ⟨a, rfl⟩ := Option.isSome_iff_exists.1 live
  trivial

theorem server? (s : State σ) (p : Ptr) : Lands (fun _ => True) (s.server? p) := by
  unfold State.server?; split <;> trivial

theorem remote? (s : State σ) (q : Ptr) : Lands (fun _ => True) (s.remote? q) := by
  unfold State.remote?; split <;> trivial

theorem readByte (b : Buf) (i : Nat) : Lands (fun _ => True) (b.readByte i) := by
  unfold Buf.readByte; split <;> trivial

theorem read (b : Buf) (idx : Nat) (len : Int) : Lands (fun _ => True) (b.read idx len) := by
  unfold Buf.read; split
  · trivial
  split <;> trivial

theorem store (b : Buf) (off : Nat) (bytes : List Byte) : Lands (fun _ => True) (b.store off bytes) := by
  unfold Buf.store; split <;> trivial

theorem send (s : State σ) (fd : Fd) (site : Site) (b : Buf) (idx len : Int) (res : Send) :
    Lands (fun _ => True) (s.send fd site b idx len res) := by
  by_cases neg : idx < 0
  · simp only [State.send, neg, if_true, throw_bind]; trivial
  · simp only [State.send, neg, if_false, pure_bind]
    exact bind (read _ _ _) fun _ _ _ => ok trivial

theorem addrHeader (b : Buf) (off : Nat) (atyp : Byte) : Lands (fun _ => True) (Local.addrHeader b off atyp) := by
  unfold Local.addrHeader
  split
  · exact bind (read _ _ _) fun _ _ _ => ok trivial
  split
  · exact bind (readByte _ _) fun _ _ _ => bind (read _ _ _) fun _ _ _ => ok trivial
  split
  · exact bind (read _ _ _) fun _ _ _ => ok trivial
  · exact ok trivial

theorem copyPayload (rb : Buf) (dst : Nat) (b : Buf) (off : Nat) (r : Int) :
    Lands (fun _ => True) (Local.copyPayload rb dst b off r) := by
  unfold Local.copyPayload
  split
  · exact bind (read _ _ _) fun _ _ _ => store _ _ _
  · exact ok trivial

theorem firstChunk (direct : Bool) (header : List Byte) (b : Buf) (off : Nat) (r : Int) (rb : Buf) :
    Lands (fun _ => True) (Local.firstChunk direct header b off r rb) := by
  unfold Local.firstChunk
  split
  · exact bind (store _ _ _) fun _ _ _ => bind (copyPayload _ _ _ _ _) fun _ _ _ => ok trivial
  · exact bind (copyPayload _ _ _ _ _) fun _ _ _ => ok trivial

end Lands

namespace Sheds

variable {s t u : State σ} {p q : Ptr}

theorem refl (s : State σ) : Sheds s s := ⟨fun _ sv h => ⟨sv, h, rfl⟩, fun _ rm h => ⟨rm, h, rfl⟩⟩

theorem trans (h₁ : Sheds s t) (h₂ : Sheds t u) : Sheds s u where
  servers p sv h := by
    obtain ⟨sv₁, h₁', e₁⟩ := h₂.servers p sv h
    obtain ⟨sv₀, h₀, e₀⟩ := h₁.servers p sv₁ h₁'
    exact ⟨sv₀, h₀, e₁.trans e₀⟩
  remotes q rm h := by
    obtain ⟨rm₁, h₁', e₁⟩ := h₂.remotes q rm h
    obtain ⟨rm₀, h₀, e₀⟩ := h₁.remotes q rm₁ h₁'
    exact ⟨rm₀, h₀, e₁.trans e₀⟩

/-- A step that leaves the records alone. -/
theorem frame (servers : ∀ p, t.servers p = s.servers p) (remotes : ∀ q, t.remotes q = s.remotes q) :
    Sheds s t :=
  ⟨fun p sv h => ⟨sv, (servers p).symm.trans h, rfl⟩, fun q rm h => ⟨rm, (remotes q).symm.trans h, rfl⟩⟩

/-- A step that leaves the records alone, then one that sheds. -/
theorem after (h : Sheds t u) (servers : ∀ p, t.servers p = s.servers p) (remotes : ∀ q, t.remotes q = s.remotes q) :
    Sheds s u :=
  (frame servers remotes).trans h

theorem remote_none (h : Sheds s t) (gone : s.remotes q = none) : t.remotes q = none := by
  cases e : t.remotes q with
  | none => rfl
  | some rm => obtain ⟨_, h', -⟩ := h.remotes q rm e; simp [gone] at h'

theorem server_none (h : Sheds s t) (gone : s.servers p = none) : t.servers p = none := by
  cases e : t.servers p with
  | none => rfl
  | some sv => obtain ⟨_, h', -⟩ := h.servers p sv e; simp [gone] at h'

/-- A record written just before a teardown that frees it does not matter. -/
theorem unsetRemote {rm : Remote} (h : Sheds (s.setRemote q rm) t) (gone : t.remotes q = none) : Sheds s t where
  servers p sv h' := by simpa using h.servers p sv h'
  remotes y rm' h' := by
    obtain ⟨rm₀, h₀, e⟩ := h.remotes y rm' h'
    have ne : y ≠ q := by rintro rfl; simp [gone] at h'
    exact ⟨rm₀, by simpa [Function.update_noteq ne] using h₀, e⟩

theorem unsetServer {sv : Server σ} (h : Sheds (s.setServer p sv) t) (gone : t.servers p = none) : Sheds s t where
  servers x sv' h' := by
    obtain ⟨sv₀, h₀, e⟩ := h.servers x sv' h'
    have ne : x ≠ p := by rintro rfl; simp [gone] at h'
    exact ⟨sv₀, by simpa [Function.update_noteq ne] using h₀, e⟩
  remotes q rm h' := by simpa using h.remotes q rm h'

/-- Rewriting a record's fields other than `buf`. -/
theorem setServer {sv sv' : Server σ} (hp : s.servers p = some sv) (same : sv'.buf = sv.buf) :
    Sheds s (s.setServer p sv') where
  servers x sv'' h := by
    by_cases e : x = p
    · subst e; simp only [State.setServer_servers, Function.update_same, Option.some.injEq] at h
      exact ⟨sv, hp, h ▸ same⟩
    · exact ⟨sv'', by simpa [e] using h, rfl⟩
  remotes q rm h := ⟨rm, by simpa using h, rfl⟩

theorem setRemote {rm rm' : Remote} (hq : s.remotes q = some rm) (same : rm'.buf = rm.buf) :
    Sheds s (s.setRemote q rm') where
  servers p sv h := ⟨sv, by simpa using h, rfl⟩
  remotes y rm'' h := by
    by_cases e : y = q
    · subst e; simp only [State.setRemote_remotes, Function.update_same, Option.some.injEq] at h
      exact ⟨rm, hq, h ▸ same⟩
    · exact ⟨rm'', by simpa [e] using h, rfl⟩

theorem dropServer : Sheds s { s with servers := Function.update s.servers p none } where
  servers x sv h := by
    by_cases e : x = p
    · subst e; simp at h
    · exact ⟨sv, by simpa [e] using h, rfl⟩
  remotes q rm h := ⟨rm, h, rfl⟩

theorem dropRemote : Sheds s { s with remotes := Function.update s.remotes q none } where
  servers p sv h := ⟨sv, h, rfl⟩
  remotes y rm h := by
    by_cases e : y = q
    · subst e; simp at h
    · exact ⟨rm, by simpa [e] using h, rfl⟩

end Sheds

namespace Buffered

variable {s t : State σ} {p q : Ptr} {sv : Server σ} {rm : Remote}

theorem shed (b : Buffered s) (h : Sheds s t) : Buffered t where
  server p sv h' := by obtain ⟨sv₀, h₀, e⟩ := h.servers p sv h'; rw [e]; exact b.server p sv₀ h₀
  remote q rm h' := by obtain ⟨rm₀, h₀, e⟩ := h.remotes q rm h'; rw [e]; exact b.remote q rm₀ h₀

theorem frame (b : Buffered s) (servers : ∀ p, t.servers p = s.servers p) (remotes : ∀ q, t.remotes q = s.remotes q) :
    Buffered t :=
  b.shed (.frame servers remotes)

theorem start (b : Buffered s) (w : Watcher) : Buffered (s.start w) := b.frame (fun _ => rfl) (fun _ => rfl)

theorem stop (b : Buffered s) (w : Watcher) : Buffered (s.stop w) := b.frame (fun _ => rfl) (fun _ => rfl)

theorem emit (b : Buffered s) (e : Event) : Buffered (s.emit e) := b.frame (fun _ => rfl) (fun _ => rfl)

theorem malloc (b : Buffered s) : Buffered s.malloc.2 := b.frame (fun _ => rfl) (fun _ => rfl)

theorem timerAgain (b : Buffered s) (w : Watcher) (period : Int) : Buffered (s.timerAgain w period) :=
  b.frame (fun _ => by simp) (fun _ => by simp)

theorem sendBytes (b : Buffered s) (fd : Fd) (site : Site) (bytes : List Byte) (res : Send) :
    Buffered (s.sendBytes fd site bytes res).2 :=
  b.frame (fun _ => by simp) (fun _ => by simp)

theorem send {fd : Fd} {site : Site} {c : Buf} {idx len : Int} {res : Send} {x : Except Errno Nat}
    (b : Buffered s) (h : s.send fd site c idx len res = .ok (x, t)) : Buffered t :=
  b.frame (fun _ => by rw [State.send_servers h]) (fun _ => by rw [State.send_remotes h])

theorem setServer (b : Buffered s) (hb : sv.buf.isSome) : Buffered (s.setServer p sv) where
  server x sv' h := by
    by_cases e : x = p
    · subst e; simp only [State.setServer_servers, Function.update_same, Option.some.injEq] at h
      exact h ▸ hb
    · exact b.server x sv' (by simpa [e] using h)
  remote q rm h := b.remote q rm (by simpa using h)

theorem setRemote (b : Buffered s) (hb : rm.buf.isSome) : Buffered (s.setRemote q rm) where
  server p sv h := b.server p sv (by simpa using h)
  remote y rm' h := by
    by_cases e : y = q
    · subst e; simp only [State.setRemote_remotes, Function.update_same, Option.some.injEq] at h
      exact h ▸ hb
    · exact b.remote y rm' (by simpa [e] using h)

end Buffered

section Lifecycle

variable {s : State σ} {p q : Ptr}

namespace State

theorem free_lands (s : State σ) (c : Ptr) : Lands (Sheds s) (s.free c) := by
  unfold State.free
  split
  · exact Lands.ok (.frame (fun _ => rfl) (fun _ => rfl))
  · trivial

theorem freeOpt_lands (s : State σ) (o : Option Ptr) : Lands (Sheds s) (s.freeOpt o) := by
  cases o with
  | none => exact Lands.ok (.refl s)
  | some c => exact free_lands s c

theorem detachServer_lands (s : State σ) (o : Option Ptr) : Lands (Sheds s) (s.detachServer o) := by
  cases o with
  | none => exact Lands.ok (.refl s)
  | some p => exact .bind (.server? s p) fun sv hp _ => .ok (.setServer (server?_eq_ok.1 hp) rfl)

theorem detachRemote_lands (s : State σ) (o : Option Ptr) : Lands (Sheds s) (s.detachRemote o) := by
  cases o with
  | none => exact Lands.ok (.refl s)
  | some q => exact .bind (.remote? s q) fun rm hq _ => .ok (.setRemote (remote?_eq_ok.1 hq) rfl)

theorem freeRemote_lands (s : State σ) (q : Ptr) :
    Lands (fun t => Sheds s t ∧ t.remotes q = none) (s.freeRemote q) := by
  unfold State.freeRemote
  refine .bind (.remote? s q) fun rm _ _ => .bind (detachServer_lands _ _) fun s₁ _ h₁ =>
    .bind (freeOpt_lands _ _) fun s₂ _ h₂ => .bind (freeOpt_lands _ _) fun s₃ _ h₃ =>
    .bind (free_lands _ _) fun s₄ _ h₄ => .bind (free_lands _ _) fun s₅ _ h₅ =>
    .bind (free_lands _ _) fun s₆ _ h₆ => .ok ⟨?_, by simp⟩
  exact h₁.trans (h₂.trans (h₃.trans (h₄.trans (h₅.trans (h₆.trans .dropRemote)))))

theorem freeServer_lands (s : State σ) (p : Ptr) :
    Lands (fun t => Sheds s t ∧ t.servers p = none) (s.freeServer p) := by
  unfold State.freeServer
  refine .bind (.server? s p) fun sv _ _ => .bind (detachRemote_lands _ _) fun s₁ _ h₁ =>
    .bind (freeOpt_lands _ _) fun s₂ _ h₂ => .bind (freeOpt_lands _ _) fun s₃ _ h₃ =>
    .bind (freeOpt_lands _ _) fun s₄ _ h₄ => .bind (free_lands _ _) fun s₅ _ h₅ =>
    .bind (free_lands _ _) fun s₆ _ h₆ => .bind (free_lands _ _) fun s₇ _ h₇ => .ok ⟨?_, by simp⟩
  exact (h₁.trans (h₂.trans (h₃.trans (h₄.trans (h₅.trans (h₆.trans (h₇.trans .dropServer))))))).after
    (fun _ => rfl) (fun _ => rfl)

theorem closeAndFreeRemote_lands (s : State σ) (o : Option Ptr) :
    Lands (fun t => Sheds s t ∧ ∀ q ∈ o, t.remotes q = none) (s.closeAndFreeRemote o) := by
  cases o with
  | none => exact Lands.ok ⟨.refl s, nofun⟩
  | some q =>
    exact .bind (.remote? s q) fun rm _ _ => (freeRemote_lands _ q).mono fun t h =>
      ⟨h.1.after (fun _ => rfl) (fun _ => rfl), fun _ e => Option.mem_some_iff.1 e ▸ h.2⟩

theorem closeAndFreeServer_lands (s : State σ) (o : Option Ptr) :
    Lands (fun t => Sheds s t ∧ ∀ p ∈ o, t.servers p = none) (s.closeAndFreeServer o) := by
  cases o with
  | none => exact Lands.ok ⟨.refl s, nofun⟩
  | some p =>
    exact .bind (.server? s p) fun sv _ _ => (freeServer_lands _ p).mono fun t h =>
      ⟨h.1.after (fun _ => rfl) (fun _ => rfl), fun _ e => Option.mem_some_iff.1 e ▸ h.2⟩

/-- A teardown fails only on a lookup or a `free`, keeps the buffer of every record it leaves,
and leaves none of its session. -/
theorem teardown_lands (s : State σ) (r o : Option Ptr) :
    Lands (fun t => Sheds s t ∧ (∀ q ∈ r, t.remotes q = none) ∧ ∀ p ∈ o, t.servers p = none)
      (s.teardown r o) :=
  .bind (closeAndFreeRemote_lands s r) fun _ _ h₁ => (closeAndFreeServer_lands _ o).mono fun _ h₂ =>
    ⟨h₁.1.trans h₂.1, fun q hq => h₂.1.remote_none (h₁.2 q hq), h₂.2⟩

end State

theorem Buffered.teardown (b : Buffered s) (r o : Option Ptr) : Lands Buffered (s.teardown r o) :=
  (State.teardown_lands s r o).mono fun _ h => b.shed h.1

theorem Buffered.closeAndFreeServer (b : Buffered s) (o : Option Ptr) : Lands Buffered (s.closeAndFreeServer o) :=
  (State.closeAndFreeServer_lands s o).mono fun _ h => b.shed h.1

/-- The teardown after `remote->buf` was freed and cleared. -/
theorem Buffered.teardown_unsetRemote {rm : Remote} {o : Option Ptr} (b : Buffered s) :
    Lands Buffered ((s.setRemote q rm).teardown (some q) o) :=
  (State.teardown_lands _ _ o).mono fun _ h => b.shed (h.1.unsetRemote (h.2.1 q rfl))

/-- The teardown after `server->buf` was freed and cleared. -/
theorem Buffered.teardown_unsetServer {sv : Server σ} {r : Option Ptr} (b : Buffered s) :
    Lands Buffered ((s.setServer p sv).teardown r (some p)) :=
  (State.teardown_lands _ r _).mono fun _ h => b.shed (h.1.unsetServer (h.2.2 p rfl))

/-- `connect_to_remote` divides by `remote_num` only, and the record it makes has its buffer. -/
theorem connectToRemote_lands (cfg : Config) (relays : cfg.remoteNum ≠ 0) (b : Buffered s) (io : Io)
    (d : Option (List Byte × List Byte)) : Lands (fun r => Buffered r.2) (connectToRemote cfg s io d) := by
  simp only [connectToRemote, relays, if_false, pure_bind]
  split
  · exact Lands.ok b
  · split
    · exact .bind (State.free_lands _ _) fun _ _ h => .ok (b.malloc.shed h)
    · have b₁ : Buffered (newRemote s.malloc.2.openFd.2 s.malloc.2.openFd.1 io.fresh).2.2 :=
        b.malloc.frame (fun _ => rfl) (fun _ => rfl)
      exact Lands.ok (b₁.setRemote (by rfl))

end Lifecycle

section Relay

variable (cipher : Cipher σ) (cfg : Config) {io : Io} {s : State σ} {p q : Ptr}

theorem sendUp_lands {r : Int} (b : Buffered s) : Lands Buffered (sendUp p q io r s) := by
  unfold sendUp
  refine .bind (.remote? s q) fun rm hq _ => ?_
  have hb := b.remote q rm (State.remote?_eq_ok.1 hq)
  have b₁ : Buffered (s.setRemote q { rm with bufIdx := 0, bufLen := r }) := b.setRemote hb
  dsimp only
  split
  · split
    · exact .ok (((b₁.stop _).start _).start _)
    refine .bind (.deref hb) fun c _ _ => .bind (.send _ _ _ _ _ _ _) fun sr sent _ => ?_
    have b₂ := b₁.send sent
    split
    · exact .ok (((b₂.setRemote (by exact hb)).stop _).start _)
    · exact Buffered.teardown (by split_ifs <;> exact b₂.frame (fun _ => rfl) (fun _ => rfl)) _ _
    · exact .ok (((b₂.setRemote (by split_ifs <;> exact hb)).stop _).start _)
  · refine .bind (.deref hb) fun c _ _ => .bind (.send _ _ _ _ _ _ _) fun sr sent _ => ?_
    have b₂ := b.send sent
    split
    · exact .ok (((b₂.setRemote (by exact hb)).stop _).start _)
    · exact b₂.teardown _ _
    · split
      · exact .ok (((b₂.setRemote (by exact hb)).stop _).start _)
      · exact .ok b₂

/-- Stage 5 clears `remote->buf` only when `ss_encrypt` fails, right before the teardown. -/
theorem relayUp_lands {remote : Option Ptr} {r : Int} (b : Buffered s) :
    Lands Buffered (relayUp cipher p io remote r s) := by
  unfold relayUp
  cases remote with
  | none => exact b.closeAndFreeServer _
  | some q =>
    refine .bind (.server? s p) fun sv hp _ => .bind (.remote? s q) fun rm hq _ => ?_
    have hb := b.remote q rm (State.remote?_eq_ok.1 hq)
    split
    · refine .bind (.deref hb) fun c _ _ => ?_
      dsimp only
      split
      · exact .bind (State.free_lands _ _) fun u _ h => (b.shed h).teardown_unsetRemote
      · refine sendUp_lands (((b.setServer (by exact b.server p sv (State.server?_eq_ok.1 hp))).setRemote ?_).emit _)
        rfl
    · exact sendUp_lands (b.emit _)

theorem deliver_lands {r : Int} (b : Buffered s) : Lands Buffered (deliver p q io r s) := by
  unfold deliver
  refine .bind (.server? s p) fun sv hp _ => ?_
  have hb := b.server p sv (State.server?_eq_ok.1 hp)
  refine .bind (.deref hb) fun c _ _ => .bind (.send _ _ _ _ _ _ _) fun sr sent _ => ?_
  have b₂ := b.send sent
  split
  · exact .ok (((b₂.setServer (by exact hb)).stop _).start _)
  · exact b₂.teardown _ _
  · split
    · exact .ok (((b₂.setServer (by exact hb)).stop _).start _)
    · exact .ok b₂

/-- `server_send_cb` follows `server->remote` after a flush only: a server with a residual is
paired. -/
theorem serverSendCb_lands (down : Down s) (b : Buffered s) : Lands Buffered (serverSendCb p io s) := by
  unfold serverSendCb
  refine .bind (.server? s p) fun sv hp _ => ?_
  replace hp := State.server?_eq_ok.1 hp
  have hb := b.server p sv hp
  split
  · exact b.teardown _ _
  next pending =>
  refine .bind (.deref hb) fun c _ _ => .bind (.send _ _ _ _ _ _ _) fun sr sent _ => ?_
  have b₂ := b.send sent
  split
  · split
    · exact b₂.teardown _ _
    · exact .ok b₂
  · split
    · exact .ok (b₂.setServer (by exact hb))
    · have paired : sv.remote.isSome := by
        cases hr : sv.remote with
        | none => exact absurd (down.unpaired p sv hp hr) pending
        | some _ => rfl
      exact .bind (.deref paired) fun q _ _ => .bind (.remote? _ q) fun _ _ _ =>
        .ok (((b₂.setServer (by exact hb)).stop _).start _)

/-- `remote_recv_cb` follows `remote->server`, which `Wf.back` keeps set, and clears
`server->buf` only when `ss_decrypt` fails, right before the teardown. -/
theorem remoteRecvCb_lands (wf : Wf s) (b : Buffered s) : Lands Buffered (remoteRecvCb cipher cfg q io s) := by
  unfold remoteRecvCb
  refine .bind (.remote? s q) fun rm hq _ => ?_
  have linked : rm.server.isSome := by
    obtain ⟨p, -, back, -⟩ := wf.back q rm (State.remote?_eq_ok.1 hq)
    simp [back]
  have b₁ := b.timerAgain (.idleTimer q) (idleRepeat cfg)
  refine .bind (.deref linked) fun p _ _ => .bind (.server? _ p) fun sv hp _ => ?_
  have hb := b₁.server p sv (State.server?_eq_ok.1 hp)
  split
  · exact .ok b₁
  · exact b₁.teardown _ _
  dsimp only
  split
  · exact b₁.teardown _ _
  refine .bind (.deref hb) fun c _ _ => .bind (.store _ _ _) fun c' _ _ => ?_
  split
  · split
    · exact .bind (State.free_lands _ _) fun u _ h =>
        (((b₁.setServer (by rfl)).emit _).shed h).teardown_unsetServer
    · exact deliver_lands ((((b₁.setServer (by rfl)).emit _).setServer (by rfl)).emit _)
  · exact deliver_lands (((b₁.setServer (by rfl)).emit _).emit _)

/-- The sending half of `remote_send_cb` follows `server` after a flush only; it is the remote's
back-pointer, which is set. -/
theorem flushUp_lands {server : Option Ptr} (linked : server.isSome) (b : Buffered s) :
    Lands Buffered (flushUp q server io s) := by
  unfold flushUp
  refine .bind (.remote? s q) fun rm hq _ => ?_
  have hb := b.remote q rm (State.remote?_eq_ok.1 hq)
  split
  · exact b.teardown _ _
  refine .bind (.deref hb) fun c _ _ => .bind (.send _ _ _ _ _ _ _) fun sr sent _ => ?_
  have b₂ := b.send sent
  split
  · split
    · exact b₂.teardown _ _
    · exact .ok b₂
  · split
    · exact .ok (b₂.setRemote (by exact hb))
    · exact .bind (.deref linked) fun p _ _ => .bind (.server? _ p) fun _ _ _ =>
        .ok (((b₂.setRemote (by exact hb)).stop _).start _)

theorem remoteSendCb_lands (wf : Wf s) (b : Buffered s) : Lands Buffered (remoteSendCb q io s) := by
  unfold remoteSendCb
  refine .bind (.remote? s q) fun rm hq _ => ?_
  replace hq := State.remote?_eq_ok.1 hq
  have linked : rm.server.isSome := by
    obtain ⟨p, -, back, -⟩ := wf.back q rm hq
    simp [back]
  have b₁ : Buffered ((((s.setRemote q { rm with connected := true }).stop (.connectTimer q)).start
      (.idleTimer q)).start (.remoteRecv q)) :=
    (((b.setRemote (by exact b.remote q rm hq)).stop _).start _).start _
  split
  · split
    · split
      · exact .bind (.deref linked) fun p _ _ => .bind (.server? _ p) fun _ _ _ => .ok ((b₁.stop _).start _)
      · exact flushUp_lands linked b₁
    · exact b.teardown _ _
  · exact flushUp_lands linked b

theorem remoteTimeoutCb_lands (b : Buffered s) : Lands Buffered (remoteTimeoutCb q s) :=
  .bind (.remote? s q) fun _ _ _ => b.teardown _ _

end Relay

section Handshake

variable (cipher : Cipher σ) (cfg : Config) {io : Io} {s : State σ} {p : Ptr}

theorem greet_lands (b : Buffered s) : Lands Buffered (greet p io s) :=
  .bind (.server? s p) fun sv hp _ =>
    .ok ((b.sendBytes _ _ _ _).setServer (by exact b.server p sv (State.server?_eq_ok.1 hp)))

theorem reply_lands {udp : Bool} {addr : List Byte} {l : Locals} (b : Buffered s) :
    Lands (fun pass => Buffered pass.state) (reply p io udp addr l s) := by
  unfold reply
  refine .bind (.server? s p) fun sv hp _ => ?_
  have hb := b.server p sv (State.server?_eq_ok.1 hp)
  refine .bind (.deref hb) fun c _ _ => .bind (.store _ _ _) fun c' _ _ =>
    .bind (.send _ _ _ _ _ _ _) fun ⟨res, s₁⟩ sent _ => ?_
  have b₁ := (b.setServer (by rfl)).send sent
  simp only [pure_bind]
  split
  · exact .bind (b₁.teardown _ _) fun _ _ b₂ => .ok b₂
  split
  · exact .bind (b₁.teardown _ _) fun _ _ b₂ => .ok b₂
  · exact .ok b₁

/-- With the ACL off the CONNECT branch never takes the bypass path, so `markDirect` follows no
pointer, and the remote `connect_to_remote` makes has its buffer. -/
theorem connectRequest_lands {l : Locals} {c : Buf} (acl : cfg.acl = false) (relays : cfg.remoteNum ≠ 0)
    (b : Buffered s) : Lands (fun r => Buffered r.2) (connectRequest cfg p io l c s) := by
  unfold connectRequest
  simp only [acl, Bool.false_and]
  refine .bind (.readByte _ _) fun atyp _ _ => .bind (.addrHeader _ _ _) fun parsed _ _ => ?_
  rcases parsed with _ | ⟨header, host, service⟩
  · exact .bind (b.malloc.teardown _ _) fun _ _ b₁ => .ok b₁
  refine .bind (.server? _ p) fun sv hp _ => ?_
  have b₁ : Buffered (s.malloc.2.setServer p { sv with stage := 5 }) :=
    b.malloc.setServer (b.malloc.server p sv (State.server?_eq_ok.1 hp))
  refine .bind (connectToRemote_lands cfg relays b₁ io _) fun ⟨remote, s₃⟩ _ b₃ =>
    .bind (Lands.ok (P := fun _ => True) trivial) fun _ _ _ => ?_
  cases remote with
  | none => exact .bind (b₃.closeAndFreeServer _) fun _ _ b₄ => .ok b₄
  | some q =>
    refine .bind (.remote? s₃ q) fun rm hq _ => .bind (.deref (b₃.remote q rm (State.remote?_eq_ok.1 hq)))
      fun _ _ _ => .bind (.firstChunk _ _ _ _ _ _) fun _ _ _ => .bind (.server? _ p) fun sv' hp' _ => .ok ?_
    exact (b₃.setServer (by exact b₃.server p sv' (State.server?_eq_ok.1 hp'))).setRemote (by rfl)

theorem bufferOf_lands (b : Buffered s) (o : Option Ptr) : Lands (fun _ => True) (bufferOf s p o) := by
  cases o with
  | none => exact .bind (.server? s p) fun sv hp _ => .deref (b.server p sv (State.server?_eq_ok.1 hp))
  | some q => exact .bind (.remote? s q) fun rm hq _ => .deref (b.remote q rm (State.remote?_eq_ok.1 hq))

theorem setBuffer_lands (b : Buffered s) (o : Option Ptr) (c : Buf) : Lands Buffered (setBuffer s p o c) := by
  cases o with
  | none => exact .bind (.server? s p) fun _ _ _ => .ok (b.setServer (by rfl))
  | some q => exact .bind (.remote? s q) fun _ _ _ => .ok (b.setRemote (by rfl))

theorem request_lands {l : Locals} (acl : cfg.acl = false) (relays : cfg.remoteNum ≠ 0) (b : Buffered s) :
    Lands (fun pass => Buffered pass.state) (request cfg p io l s) := by
  unfold request
  refine .bind (.server? s p) fun sv _ _ => .bind (bufferOf_lands b _) fun c _ _ =>
    .bind (.readByte _ _) fun cmd _ _ => ?_
  split
  · exact reply_lands b
  split
  · exact .bind ((b.sendBytes _ _ _ _).teardown _ _) fun _ _ b₁ => .ok b₁
  · refine .bind (connectRequest_lands cfg acl relays b) fun ⟨res, s₂⟩ _ b₂ => ?_
    cases res with
    | none => exact .ok b₂
    | some l' => exact reply_lands b₂

/-- The two passes of the loop: the stage-1 pass goes round only into stage 5. -/
theorem twoPasses_lands {l : Locals} (acl : cfg.acl = false) (relays : cfg.remoteNum ≠ 0) (b : Buffered s) :
    Lands Buffered (twoPasses cipher cfg p io l s) := by
  unfold twoPasses
  refine .bind (.server? s p) fun sv _ _ => ?_
  split
  · exact relayUp_lands cipher b
  split
  · exact greet_lands b
  · refine .bind (request_lands cfg acl relays b) fun pass _ b₁ => ?_
    cases pass with
    | done u => exact .ok b₁
    | again l u => exact relayUp_lands cipher b₁

/-- `server_recv_cb` runs its loop from a stage in {0, 1, 5}, so two passes never run out. -/
theorem serverRecvCb_lands (acl : cfg.acl = false) (relays : cfg.remoteNum ≠ 0) (b : Buffered s)
    (staged : Staged s) : Lands Buffered (serverRecvCb cipher cfg p io s) := by
  unfold serverRecvCb
  refine .bind (.server? s p) fun sv _ _ => ?_
  split
  · exact .ok b
  · exact b.teardown _ _
  rename_i bytes _
  dsimp only
  split
  · exact b.teardown _ _
  refine .bind (bufferOf_lands b _) fun c _ _ => .bind (.store _ _ _) fun c' _ _ =>
    .bind (setBuffer_lands b _ _) fun u set b₁ => ?_
  have staged' : Staged (u.emit (.recv sv.fd (bytes.take bufSize))) := ((setBuffer_keeps set).trans (Keeps.of_eq rfl)).staged staged
  have loop : ∀ l, serverRecvLoop cipher cfg p io 2 l _ = twoPasses cipher cfg p io l _ := fun _ =>
    serverRecvLoop_two cipher cfg 0 staged'
  rw [loop]
  exact twoPasses_lands cipher cfg acl relays (b₁.emit _)

end Handshake

section Reactor

variable (cipher : Cipher σ) (cfg : Config) {s : State σ}

theorem Buffered.newServer (b : Buffered s) (fd : Fd) (fresh : Nat → Byte) :
    Buffered (newServer cipher cfg s fd fresh).2 := by
  refine ⟨fun x sv h => ?_, fun q rm h => b.remote q rm ?_⟩
  · by_cases e : x = s.next
    · by_cases m : cfg.method = 0 <;> simp [Local.newServer, m, e] at h <;> simp [← h]
    · exact b.server x sv (by by_cases m : cfg.method = 0 <;> simpa [Local.newServer, m, e] using h)
  · by_cases m : cfg.method = 0 <;> simpa [Local.newServer, m] using h

theorem dispatch_lands {w : Watcher} {io : Io} (acl : cfg.acl = false) (relays : cfg.remoteNum ≠ 0) (g : Good s)
    (b : Buffered s) (staged : Staged s) : Lands Buffered (dispatch cipher cfg w io s) := by
  cases w with
  | serverRecv p => exact serverRecvCb_lands cipher cfg acl relays b staged
  | serverSend p => exact serverSendCb_lands g.down b
  | remoteRecv q => exact remoteRecvCb_lands cipher cfg g.inv.wf b
  | remoteSend q => exact remoteSendCb_lands g.inv.wf b
  | connectTimer q => exact remoteTimeoutCb_lands (b.stop _)
  | idleTimer q => exact remoteTimeoutCb_lands (b.timerAgain _ _)

theorem tick_lands (acl : cfg.acl = false) (relays : cfg.remoteNum ≠ 0) (g : Good s) (b : Buffered s)
    (staged : Staged s) (t : Tick) (io : Io) : Lands Buffered (tick cipher cfg t io s) := by
  cases t with
  | accept =>
    refine .ok ?_
    unfold acceptCb
    split
    · have b₁ : Buffered s.openFd.2 := b.frame (fun _ => rfl) (fun _ => rfl)
      exact (b₁.newServer cipher cfg _ _).start _
    · exact b
  | fire w =>
    simp only [tick]
    split
    · exact dispatch_lands cipher cfg acl relays g b staged
    · exact .ok b

/-- Every reachable state keeps the buffer of each live record. -/
theorem reachable_buffered (acl : cfg.acl = false) (relays : cfg.remoteNum ≠ 0) (reach : Reachable cipher cfg s) :
    Buffered s := by
  induction reach with
  | init => exact ⟨fun _ _ h => (nomatch h), fun _ _ h => (nomatch h)⟩
  | @step u u' reach step ih =>
    obtain ⟨t, io, h⟩ := step
    have := tick_lands cipher cfg acl relays (reachable_good cipher cfg reach) ih (reachable_staged cipher cfg reach) t io
    rwa [h] at this

theorem run_lands (acl : cfg.acl = false) (relays : cfg.remoteNum ≠ 0) (reach : Reachable cipher cfg s)
    (l : List (Tick × Io)) : Lands (fun _ => True) (run cipher cfg l s) := by
  induction l generalizing s with
  | nil => exact .ok trivial
  | cons step rest ih =>
    obtain ⟨t, io⟩ := step
    exact .bind (tick_lands cipher cfg acl relays (reachable_good cipher cfg reach)
      (reachable_buffered cipher cfg acl relays reach) (reachable_staged cipher cfg reach) t io)
      fun _ h _ => ih (.step reach (.tick t io h))

/-- With the ACL off and a remote server configured, whatever the schedule of accepts and
watcher events and whatever the system calls and collaborators answer, a run from the start can
stop only on a bounds check of a buffer: it never follows a NULL `server`, `remote` or `buf`
pointer, never touches a freed record, never divides by zero and never runs the loop of
`server_recv_cb` out of passes. The model's `malloc` does not fail, so the pointers it returns
are not among those checked. -/
theorem run_faults_only_on_bounds (acl : cfg.acl = false) (relays : cfg.remoteNum ≠ 0) (l : List (Tick × Io))
    {f : Fault} (h : run cipher cfg l (initial cfg.fastOpen) = .error f) : f = .outOfBounds ∨ f = .badLength := by
  have checked : f.checked = true := by
    have := run_lands cipher cfg acl relays .init l
    rwa [h] at this
  have alive : f ≠ .dangling := fun e => run_memSafe cipher cfg .init l (h.trans (congrArg _ e))
  cases f <;> simp_all [Fault.checked]

/-- A request of one byte after a greeting shaped like a request: the address is read from the
bytes the greeting left, and the first window is `1 - 3 = -2` bytes long. The table method
leaves the length as it is, the connect goes out, and when it completes `remote_send_cb` sends
the window: a length of `-2`, a huge `size_t`. -/
theorem run_faults_on_short_request :
    plainCfg.acl = false ∧ plainCfg.remoteNum ≠ 0 ∧
      run Cipher.identity plainCfg [(.accept, {}),
        (.fire (.serverRecv 1), { recv := .data [5, 1, 0, 1, 127, 0, 0, 1, 0, 80], reply := .accept 2 }),
        (.fire (.serverRecv 1), { recv := .data [5], reply := .accept 10 }),
        (.fire (.remoteSend 8), { send := .accept 10 })] (initial plainCfg.fastOpen) =
        .error .badLength ∧
      (Fault.badLength = .outOfBounds ∨ Fault.badLength = .badLength) := by
  refine ⟨rfl, by decide, ?ran, run_faults_only_on_bounds Cipher.identity plainCfg rfl (by decide) _ ?ran⟩
  rfl

end Reactor

end Shadowsocks.Local
