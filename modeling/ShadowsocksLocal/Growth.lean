import ShadowsocksLocal.Teardown
import Mathlib.Data.List.Nodup

/-! Allocation. Blocks and descriptors come from the counter, so what `malloc`, `accept` and
`socket` return is owned by nobody yet. `addServer` is a new unpaired server (`accept_cb`),
`attach` a new remote paired with an existing server (the CONNECT branch); both keep the
invariant. -/
namespace Shadowsocks.Local

variable {σ : Type} {s t : State σ}

theorem Inv.owned_lt {e : Endpoint} {b : Ptr} (inv : Inv s) (m : b ∈ s.owned e) : b < s.next :=
  inv.fresh.heap b (inv.owns.live e b m)

theorem Inv.fdOf_lt {e : Endpoint} {fd : Fd} (inv : Inv s) (h : s.fdOf e = some fd) : fd < s.next :=
  inv.fresh.fds fd (inv.owns.fdOpen e fd h)

theorem Inv.server_fd_lt {p : Ptr} {sv : Server σ} (inv : Inv s) (hp : s.servers p = some sv) : sv.fd < s.next :=
  @Inv.fdOf_lt σ s (.server p) sv.fd inv (by simp [State.fdOf, hp])

theorem Inv.remote_fd_lt {q : Ptr} {rm : Remote} (inv : Inv s) (hq : s.remotes q = some rm) : rm.fd < s.next :=
  @Inv.fdOf_lt σ s (.remote q) rm.fd inv (by simp [State.fdOf, hq])

theorem State.live_of_server? {p : Ptr} {sv : Server σ} (h : s.server? p = .ok sv) : s.isLive (.server p) := by
  simp [State.isLive, State.server?_eq_ok.1 h]

/-- Nothing live sits at or past the counter. -/
theorem Inv.dead {x : Ptr} (inv : Inv s) (past : s.next ≤ x) : s.servers x = none ∧ s.remotes x = none := by
  constructor
  · cases h : s.servers x with
    | none => rfl
    | some sv =>
      have := @Inv.owned_lt σ s (.server x) x inv (by simp [State.owned, h, Server.blocks])
      exact absurd past (Nat.not_le.2 this)
  · cases h : s.remotes x with
    | none => rfl
    | some rm =>
      have := @Inv.owned_lt σ s (.remote x) x inv (by simp [State.owned, h, Remote.blocks])
      exact absurd past (Nat.not_le.2 this)

/-- A state that differs from `s` only in blocks, descriptors and the counter, none of them
owned: `malloc` of a scratch block, a `free` of one, a descriptor not yet in a record. -/
theorem Inv.spare (inv : Inv s) (servers : t.servers = s.servers) (remotes : t.remotes = s.remotes)
    (active : t.active = s.active) (connections : t.connections = s.connections) (trace : t.trace = s.trace)
    (grow : s.next ≤ t.next) (heap : ∀ b, t.heap b = true → s.heap b = true ∨ s.next ≤ b ∧ b < t.next)
    (keep : ∀ b, b < s.next → s.heap b = true → t.heap b = true)
    (fds : ∀ fd, s.fds fd = true → t.fds fd = true)
    (fdsFresh : ∀ fd, t.fds fd = true → s.fds fd = true ∨ s.next ≤ fd ∧ fd < t.next) : Inv t := by
  have owned : t.owned = s.owned := by funext e; cases e <;> simp [State.owned, servers, remotes]
  have fdOf : t.fdOf = s.fdOf := by funext e; cases e <;> simp [State.fdOf, servers, remotes]
  have isLive : t.isLive = s.isLive := by funext e; cases e <;> simp [State.isLive, servers, remotes]
  refine ⟨⟨?_, ?_, ?_, ?_, ?_, ?_⟩, ⟨?_, ?_, ?_, ?_, ?_⟩, ⟨?_, ?_, ?_⟩⟩
  · rw [servers, remotes]; exact inv.wf.pair
  · rw [servers, remotes]; exact inv.wf.back
  · rw [servers]; exact inv.wf.stage
  · rw [connections]; exact inv.wf.nodup
  · rw [connections, servers]; exact inv.wf.registry
  · rw [active, isLive]; exact inv.wf.armed
  · rw [owned]; exact fun e b m => keep b (inv.owned_lt m) (inv.owns.live e b m)
  · rw [owned]; exact inv.owns.nodup
  · rw [owned]; exact inv.owns.disjoint
  · rw [fdOf]; exact fun e fd h => fds fd (inv.owns.fdOpen e fd h)
  · rw [fdOf]; exact inv.owns.fdDistinct
  · intro b hb
    rcases heap b hb with old | ⟨-, lt⟩
    · exact lt_of_lt_of_le (inv.fresh.heap b old) grow
    · exact lt
  · intro fd hf
    rcases fdsFresh fd hf with old | ⟨-, lt⟩
    · exact lt_of_lt_of_le (inv.fresh.fds fd old) grow
    · exact lt
  · rw [trace]; exact fun e m => lt_of_lt_of_le (inv.fresh.trace e m) grow

theorem malloc_inv (inv : Inv s) : Inv s.malloc.2 := by
  refine inv.spare rfl rfl rfl rfl rfl (by simp) (fun b hb => ?_) (fun b lt hb => ?_) (fun _ => id)
    (fun _ h => .inl h)
  · by_cases e : b = s.next <;> simp_all [Function.update_apply]
  · simp [Function.update_apply, hb]

/-- A block taken from the counter and given back at once: `getaddrinfo`, then a failed
`socket`. -/
theorem malloc_free_inv (inv : Inv s) :
    Inv { s with heap := Function.update (Function.update s.heap s.next true) s.next false, next := s.next + 1 } := by
  refine inv.spare rfl rfl rfl rfl rfl (by simp) (fun b hb => ?_) (fun b lt hb => ?_) (fun _ => id)
    (fun _ h => .inl h)
  · by_cases e : b = s.next <;> simp_all [Function.update_apply]
  · simp [Function.update_apply, Nat.ne_of_lt lt, hb]

/-- Ownership after one endpoint `e₀` gets fresh blocks `bs` and a fresh descriptor `fd₀`. -/
theorem Owns.extend {e₀ : Endpoint} {bs : List Ptr} {fd₀ : Fd} (inv : Inv s)
    (owned : ∀ e, t.owned e = if e = e₀ then bs else s.owned e)
    (fdOf : ∀ e, t.fdOf e = if e = e₀ then some fd₀ else s.fdOf e)
    (heap : ∀ b, t.heap b = true ↔ s.heap b = true ∨ b ∈ bs)
    (fds : ∀ fd, t.fds fd = true ↔ s.fds fd = true ∨ fd = fd₀)
    (fresh : ∀ b ∈ bs, s.next ≤ b) (nd : bs.Nodup) (fdFresh : s.next ≤ fd₀) : Owns t where
  live e b m := by
    rw [owned] at m
    split at m
    · exact (heap b).2 (.inr m)
    · exact (heap b).2 (.inl (inv.owns.live e b m))
  nodup e := by
    rw [owned]
    split
    · exact nd
    · exact inv.owns.nodup e
  disjoint e e' ne b m m' := by
    rw [owned] at m m'
    split at m <;> split at m'
    · subst_vars; exact ne rfl
    · exact absurd (inv.owned_lt m') (Nat.not_lt.2 (fresh b m))
    · exact absurd (inv.owned_lt m) (Nat.not_lt.2 (fresh b m'))
    · exact inv.owns.disjoint e e' ne b m m'
  fdOpen e fd h := by
    rw [fdOf] at h
    split at h
    · cases h; exact (fds _).2 (.inr rfl)
    · exact (fds fd).2 (.inl (inv.owns.fdOpen e fd h))
  fdDistinct e e' fd ne h h' := by
    rw [fdOf] at h h'
    split at h <;> split at h'
    · subst_vars; exact ne rfl
    · cases h; exact absurd (inv.fdOf_lt h') (Nat.not_lt.2 fdFresh)
    · cases h'; exact absurd (inv.fdOf_lt h) (Nat.not_lt.2 fdFresh)
    · exact inv.owns.fdDistinct e e' fd ne h h'

theorem Fresh.extend {bs : List Ptr} {fd₀ : Fd} (inv : Inv s)
    (heap : ∀ b, t.heap b = true ↔ s.heap b = true ∨ b ∈ bs)
    (fds : ∀ fd, t.fds fd = true ↔ s.fds fd = true ∨ fd = fd₀) (trace : t.trace = s.trace)
    (grow : s.next ≤ t.next) (fresh : ∀ b ∈ bs, b < t.next) (fdFresh : fd₀ < t.next) : Fresh t where
  heap b hb := by
    rcases (heap b).1 hb with old | m
    · exact lt_of_lt_of_le (inv.fresh.heap b old) grow
    · exact fresh b m
  fds fd hf := by
    rcases (fds fd).1 hf with old | rfl
    · exact lt_of_lt_of_le (inv.fresh.fds fd old) grow
    · exact fdFresh
  trace := by rw [trace]; exact fun e m => lt_of_lt_of_le (inv.fresh.trace e m) grow

/-- A new unpaired server `p` whose blocks and descriptor are fresh, registered and reading. -/
theorem Inv.addServer {p : Ptr} {sv : Server σ} (inv : Inv s)
    (servers : ∀ x, t.servers x = if x = p then some sv else s.servers x)
    (remotes : ∀ y, t.remotes y = s.remotes y)
    (heap : ∀ b, t.heap b = true ↔ s.heap b = true ∨ b ∈ sv.blocks p)
    (fds : ∀ fd, t.fds fd = true ↔ s.fds fd = true ∨ fd = sv.fd)
    (active : ∀ w, t.active w = true ↔ s.active w = true ∨ w = .serverRecv p)
    (connections : t.connections = s.connections ++ [p]) (trace : t.trace = s.trace) (grow : s.next ≤ t.next)
    (fresh : ∀ b ∈ sv.blocks p, s.next ≤ b ∧ b < t.next) (nd : (sv.blocks p).Nodup)
    (fdFresh : s.next ≤ sv.fd ∧ sv.fd < t.next) (alone : sv.remote = none) (notRelaying : sv.stage ≠ 5) :
    Inv t := by
  have dead := inv.dead (fresh p (List.mem_cons_self _ _)).1
  have owned : ∀ e, t.owned e = if e = .server p then sv.blocks p else s.owned e := by
    intro e; cases e with
    | server x => by_cases h : x = p <;> simp [State.owned, servers, h]
    | remote y => simp [State.owned, remotes]
  have fdOf : ∀ e, t.fdOf e = if e = .server p then some sv.fd else s.fdOf e := by
    intro e; cases e with
    | server x => by_cases h : x = p <;> simp [State.fdOf, servers, h]
    | remote y => simp [State.fdOf, remotes]
  have isLive : ∀ e, t.isLive e ↔ e = .server p ∨ s.isLive e := by
    intro e; cases e with
    | server x => by_cases h : x = p <;> simp [State.isLive, servers, h, dead.1]
    | remote y => simp [State.isLive, remotes]
  refine ⟨⟨?_, ?_, ?_, ?_, ?_, ?_⟩, Owns.extend inv owned fdOf heap fds (fun b m => (fresh b m).1) nd fdFresh.1,
    Fresh.extend inv heap fds trace grow (fun b m => (fresh b m).2) fdFresh.2⟩
  · intro x sv' y hx hy
    rw [servers] at hx
    split at hx
    · cases hx; simp [alone] at hy
    · simpa [remotes] using inv.wf.pair x sv' y hx hy
  · intro y rm hy
    obtain ⟨x, sv', hx, hsv', hr⟩ := inv.wf.back y rm (by simpa [remotes] using hy)
    have : x ≠ p := by rintro rfl; simp [dead.1] at hsv'
    exact ⟨x, sv', hx, by simp [servers, this, hsv'], hr⟩
  · intro x sv' hx
    rw [servers] at hx
    split at hx
    · cases hx; simp [alone, notRelaying]
    · exact inv.wf.stage x sv' hx
  · rw [connections]
    refine List.nodup_append.2 ⟨inv.wf.nodup, List.nodup_singleton p, ?_⟩
    simp only [List.disjoint_singleton, inv.wf.registry p, dead.1, Option.isSome_none, Bool.false_eq_true,
      not_false_eq_true]
  · intro x
    by_cases h : x = p <;> simp [connections, servers, h, inv.wf.registry]
  · intro w a
    rcases (active w).1 a with a | rfl
    · exact (isLive _).2 (.inr (inv.wf.armed w a))
    · exact (isLive _).2 (.inl rfl)

/-- A new remote `q` whose blocks and descriptor are fresh, paired with the unpaired server `p`,
which moves to stage 5 and keeps its blocks and descriptor. -/
theorem Inv.attach {p q : Ptr} {sv sv' : Server σ} {rm : Remote} (inv : Inv s) (hp : s.servers p = some sv)
    (alone : sv.remote = none)
    (servers : ∀ x, t.servers x = if x = p then some sv' else s.servers x)
    (remotes : ∀ y, t.remotes y = if y = q then some rm else s.remotes y)
    (heap : ∀ b, t.heap b = true ↔ s.heap b = true ∨ b ∈ rm.blocks q)
    (fds : ∀ fd, t.fds fd = true ↔ s.fds fd = true ∨ fd = rm.fd)
    (active : ∀ w, t.active w = s.active w) (connections : t.connections = s.connections)
    (trace : t.trace = s.trace) (grow : s.next ≤ t.next)
    (fresh : ∀ b ∈ rm.blocks q, s.next ≤ b ∧ b < t.next) (nd : (rm.blocks q).Nodup)
    (fdFresh : s.next ≤ rm.fd ∧ rm.fd < t.next) (back : rm.server = some p)
    (same : sv'.blocks p = sv.blocks p) (sameFd : sv'.fd = sv.fd) (paired : sv'.remote = some q)
    (relaying : sv'.stage = 5) : Inv t := by
  have dead := inv.dead (fresh q (List.mem_cons_self _ _)).1
  have owned : ∀ e, t.owned e = if e = .remote q then rm.blocks q else s.owned e := by
    intro e; cases e with
    | server x => by_cases h : x = p <;> simp [State.owned, servers, h, hp, same]
    | remote y => by_cases h : y = q <;> simp [State.owned, remotes, h]
  have fdOf : ∀ e, t.fdOf e = if e = .remote q then some rm.fd else s.fdOf e := by
    intro e; cases e with
    | server x => by_cases h : x = p <;> simp [State.fdOf, servers, h, hp, sameFd]
    | remote y => by_cases h : y = q <;> simp [State.fdOf, remotes, h]
  have isLive : ∀ e, t.isLive e ↔ e = .remote q ∨ s.isLive e := by
    intro e; cases e with
    | server x => by_cases h : x = p <;> simp [State.isLive, servers, h, hp]
    | remote y => by_cases h : y = q <;> simp [State.isLive, remotes, h, dead.2]
  refine ⟨⟨?_, ?_, ?_, ?_, ?_, ?_⟩, Owns.extend inv owned fdOf heap fds (fun b m => (fresh b m).1) nd fdFresh.1,
    Fresh.extend inv heap fds trace grow (fun b m => (fresh b m).2) fdFresh.2⟩
  · intro x sv₀ y hx hy
    rw [servers] at hx
    split at hx
    · cases hx; rw [paired] at hy; cases hy; subst_vars; simp [remotes, back]
    · obtain ⟨rm₀, h₀, b₀⟩ := inv.wf.pair x sv₀ y hx hy
      have : y ≠ q := by rintro rfl; simp [dead.2] at h₀
      exact ⟨rm₀, by simp [remotes, this, h₀], b₀⟩
  · intro y rm₀ hy
    rw [remotes] at hy
    split at hy
    · cases hy; subst_vars; exact ⟨p, sv', back, by simp [servers], paired⟩
    · obtain ⟨x, sv₀, hx, hsv₀, hr⟩ := inv.wf.back y rm₀ hy
      have : x ≠ p := by rintro rfl; simp [hp, alone] at hsv₀ hr; simp_all
      exact ⟨x, sv₀, hx, by simp [servers, this, hsv₀], hr⟩
  · intro x sv₀ hx
    rw [servers] at hx
    split at hx
    · cases hx; simp [paired, relaying]
    · exact inv.wf.stage x sv₀ hx
  · rw [connections]; exact inv.wf.nodup
  · intro x
    by_cases h : x = p <;> simp [connections, servers, h, inv.wf.registry, hp]
  · intro w a
    rw [active] at a
    exact (isLive _).2 (.inr (inv.wf.armed w a))

section Lifecycle

variable (cfg : Config) {io : Io}

/-- What `connect_to_remote` leaves: nothing, a counter moved past a freed `addr_info`, or a new
remote record at `next + 2` with its blocks, descriptor and `addr_info` after the counter. -/
theorem connectToRemote_cases {s' : State σ} {d : Option (List Byte × List Byte)} {res : Option Ptr}
    (h : connectToRemote cfg s io d = .ok (res, s')) :
    (res = none ∧ (s' = s ∨ s' = { s with
      heap := Function.update (Function.update s.heap s.next true) s.next false, next := s.next + 1 })) ∨
    (res = some (s.next + 2) ∧ s' = (s.malloc.2.openFd.2.malloc.2.malloc.2.malloc.2.malloc.2).setRemote (s.next + 2)
      ⟨s.next + 1, some ⟨s.next + 3, bufSize, io.fresh⟩, 0, 0, false, false, s.next + 4, s.next + 5, some s.next,
        none⟩) := by
  simp only [connectToRemote] at h
  by_cases n : cfg.remoteNum = 0
  · simp [n] at h
  · simp only [n, if_false] at h
    split at h
    · simp at h; exact .inl ⟨h.1.symm, .inl h.2.symm⟩
    · split at h
      · simp [State.free] at h; exact .inl ⟨h.1.symm, .inr h.2.symm⟩
      · simp [newRemote] at h; exact .inr ⟨h.1.symm, h.2.symm⟩

/-- A lookup that gives a remote ran with relays configured and resolved the query asked. -/
theorem connectToRemote_some {s' : State σ} {d : Option (List Byte × List Byte)} {q : Ptr}
    (h : connectToRemote cfg s io d = .ok (some q, s')) :
    0 < cfg.remoteNum ∧ (d = none → io.resolve (.relay (io.rand % cfg.remoteNum)) = true) ∧
      (∀ host port, d = some (host, port) → io.resolve (.named host port) = true) := by
  simp only [connectToRemote] at h
  by_cases n : cfg.remoteNum = 0
  · simp [n] at h
  · simp only [n, if_false] at h
    split at h
    · simp at h
    · rename_i resolved
      split at h
      · simp [State.free] at h
      · refine ⟨Nat.pos_of_ne_zero n, fun e => ?_, fun host port e => ?_⟩ <;> subst e <;> simpa using resolved

theorem connectToRemote_servers {s' : State σ} {d : Option (List Byte × List Byte)} {res : Option Ptr}
    (h : connectToRemote cfg s io d = .ok (res, s')) : s'.servers = s.servers := by
  rcases connectToRemote_cases cfg h with ⟨-, rfl | rfl⟩ | ⟨-, rfl⟩ <;> rfl

/-- The remote `connect_to_remote` returns owns a fresh `BUF_SIZE` buffer. -/
theorem connectToRemote_fresh {s' : State σ} {d : Option (List Byte × List Byte)} {q : Ptr} {rm : Remote} {rb : Buf}
    (h : connectToRemote cfg s io d = .ok (some q, s')) (hq : s'.remotes q = some rm) (hb : rm.buf = some rb) :
    rb.cap = bufSize := by
  rcases connectToRemote_cases cfg h with ⟨⟨⟩, -⟩ | ⟨same, rfl⟩
  obtain rfl := Option.some.inj same
  simp only [State.setRemote_remotes, Function.update_same, Option.some.injEq] at hq
  subst hq
  cases hb
  rfl

/-- The remote `connect_to_remote` returns is not yet connected; the call writes nothing to the
trace and leaves fast open as it was. -/
theorem connectToRemote_unconnected {s' : State σ} {d : Option (List Byte × List Byte)} {q : Ptr} {rm : Remote}
    (h : connectToRemote cfg s io d = .ok (some q, s')) (hq : s'.remotes q = some rm) :
    rm.connected = false ∧ s'.trace = s.trace ∧ s'.fastOpen = s.fastOpen := by
  rcases connectToRemote_cases cfg h with ⟨⟨⟩, -⟩ | ⟨same, rfl⟩
  obtain rfl := Option.some.inj same
  simp only [State.setRemote_remotes, Function.update_same, Option.some.injEq] at hq
  subst hq
  exact ⟨rfl, rfl, rfl⟩

end Lifecycle

end Shadowsocks.Local
