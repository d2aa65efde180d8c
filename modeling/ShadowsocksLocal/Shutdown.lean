import ShadowsocksLocal.Structure
import ShadowsocksLocal.Handshake

/-! The shutdown sweep `free_connections`: from the head of `connections`, close each server and
then its remote, and move the cursor by `curr->next`. The cursor is the link kept in the record
`close_and_free_server` has just freed. Under the invariant the first pass removes exactly the
head session, and the read that follows is of a freed record. -/
namespace Shadowsocks.Local

variable {σ : Type}

namespace State

/-- `curr->next`: the registry link kept in the record of server `p`. -/
def nextOf (s : State σ) (p : Ptr) : Except Fault (Option Ptr) := do
  let _ ← s.server? p
  pure (s.connections.dropWhile (· ≠ p)).tail.head?

/-- The body of the loop: `remote = server->remote`, `close_and_free_server(server)`,
`close_and_free_remote(remote)`. -/
def closeSession (s : State σ) (p : Ptr) : Except Fault (State σ) := do
  let sv ← s.server? p
  let s ← s.closeAndFreeServer (some p)
  s.closeAndFreeRemote sv.remote

end State

/-- `free_connections` from the cursor `curr`; the fuel bounds the passes. -/
def freeConnections : Nat → Option Ptr → State σ → Except Fault (State σ)
  | _, none, s => .ok s
  | 0, some _, _ => .error .diverge
  | fuel + 1, some p, s => do
    let s ← s.closeSession p
    freeConnections fuel (← s.nextOf p) s

/-- The sweep after the loop has stopped: one pass per registered session, from the head. -/
def sweep (s : State σ) : Except Fault (State σ) :=
  freeConnections s.connections.length s.connections.head? s

namespace State

variable {s : State σ} {p q : Ptr} {sv : Server σ} {rm : Remote}

theorem nextOf_freed (gone : s.servers p = none) : s.nextOf p = .error .dangling := by
  simp [nextOf, server?, gone]

/-- `free_server` of a paired server detaches its remote and leaves it live. -/
theorem freeServer_paired_ok (hp : s.servers p = some sv) (paired : sv.remote = some q)
    (hq : s.remotes q = some rm) (live : ∀ b ∈ sv.blocks p, s.heap b = true) (nd : (sv.blocks p).Nodup) :
    s.freeServer p = .ok { s with
      servers := Function.update s.servers p none
      remotes := Function.update s.remotes q (some { rm with server := none })
      connections := s.connections.erase p
      heap := release s.heap (sv.blocks p) } := by
  have detach : ({ s with connections := s.connections.erase p } : State σ).detachRemote sv.remote =
      .ok (({ s with connections := s.connections.erase p } : State σ).setRemote q { rm with server := none }) := by
    rw [paired, detachRemote,
      show ({ s with connections := s.connections.erase p } : State σ).remote? q = .ok rm from remote?_of hq]
    rfl
  exact freeServer_detached_ok hp detach live nd

theorem closeAndFreeServer_paired_ok (hp : s.servers p = some sv) (paired : sv.remote = some q)
    (hq : s.remotes q = some rm) (live : ∀ b ∈ sv.blocks p, s.heap b = true) (nd : (sv.blocks p).Nodup) :
    s.closeAndFreeServer (some p) = .ok ((s.dropServer p sv).setRemote q { rm with server := none }) := by
  simp only [closeAndFreeServer, server?_of hp, ok_bind]
  rw [@freeServer_paired_ok σ _ p q sv rm]
  · simp only [dropServer, Except.ok.injEq]
    ext1
    case active => funext w; cases w <;> simp [Function.update_apply, Watcher.owner, eq_comm, Bool.and_comm]
    all_goals try funext x
    all_goals simp [Function.update_apply]
  · simpa using hp
  · exact paired
  · simpa using hq
  · simpa using live
  · exact nd

/-- `free_remote` of a remote already detached from its server. -/
theorem freeRemote_alone_ok (hq : s.remotes q = some rm) (alone : rm.server = none)
    (live : ∀ b ∈ rm.blocks q, s.heap b = true) (nd : (rm.blocks q).Nodup) :
    s.freeRemote q = .ok { s with
      remotes := Function.update s.remotes q none
      heap := release s.heap (rm.blocks q) } := by
  have detach : s.detachServer rm.server = .ok s := by rw [alone]; rfl
  exact freeRemote_detached_ok hq detach live nd

theorem closeAndFreeRemote_alone_ok (hq : s.remotes q = some rm) (alone : rm.server = none)
    (live : ∀ b ∈ rm.blocks q, s.heap b = true) (nd : (rm.blocks q).Nodup) :
    s.closeAndFreeRemote (some q) = .ok { s with
      remotes := Function.update s.remotes q none
      heap := release s.heap (rm.blocks q)
      fds := Function.update s.fds rm.fd false
      active := fun w => s.active w && !decide (w.owner = .remote q)
      trace := s.trace ++ [.close rm.fd] } := by
  simp only [closeAndFreeRemote, remote?_of hq, ok_bind]
  rw [@freeRemote_alone_ok σ _ q rm]
  · simp only [Except.ok.injEq]
    ext1
    case active => funext w; cases w <;> simp [Function.update_apply, Watcher.owner, eq_comm, Bool.and_comm]
    all_goals try funext x
    all_goals simp [Function.update_apply]
  · simpa using hq
  · exact alone
  · simpa using live
  · exact nd

/-- Under the invariant one pass of the sweep removes exactly the session of `p`: the server
first, then its remote. -/
theorem closeSession_ok (inv : Inv s) (hp : s.servers p = some sv) :
    s.closeSession p = .ok (s.remove (sv.session p).reverse) := by
  obtain ⟨live, nd⟩ := inv.owns.server_blocks hp
  unfold closeSession
  rw [server?_of hp, ok_bind]
  cases hr : sv.remote with
  | none =>
    rw [closeAndFreeServer_ok hp live nd hr, ok_bind, closeAndFreeRemote, dropServer_eq_remove inv.wf.nodup hp]
    simp [Server.session, hr]
  | some q =>
    obtain ⟨rm, hq, -⟩ := inv.wf.pair p sv q hp hr
    obtain ⟨liveR, ndR⟩ := inv.owns.remote_blocks hq
    have apart : ∀ b ∈ rm.blocks q, b ∉ sv.blocks p := fun b m m' =>
      inv.owns.disjoint (.server p) (.remote q) (by simp) b
        (by simpa [State.owned, hp] using m') (by simpa [State.owned, hq] using m)
    have hq' : ((s.dropServer p sv).setRemote q { rm with server := none }).remotes q =
        some { rm with server := none } := by simp
    rw [closeAndFreeServer_paired_ok hp hr hq live nd, ok_bind,
      closeAndFreeRemote_alone_ok hq' rfl (fun b m => by simp [dropServer, liveR b m, apart b m]) ndR]
    simp only [Server.session, hr, Option.map_some', Option.toList_some, List.singleton_append,
      List.reverse_cons, List.reverse_nil, List.nil_append, List.cons_append, Except.ok.injEq]
    ext1
    · funext x; by_cases e : x = p <;> simp [dropServer, e]
    · funext y; by_cases e : y = q <;> simp [e, Function.update_apply, dropServer]
    · funext b
      have same : Remote.blocks q { rm with server := none } = rm.blocks q := rfl
      simp [dropServer, owned, hp, hq, same, Bool.and_assoc]
    · funext fd
      by_cases e : fd = sv.fd <;> by_cases e' : fd = rm.fd <;>
        simp [dropServer, fdOf, hp, hq, Function.update_apply, e, e', eq_comm]
    · rfl
    · funext w; cases w <;> simp [dropServer, Function.update_apply, Watcher.owner, eq_comm, Bool.and_comm]
    · simp only [dropServer, setRemote, remove_connections, inv.wf.nodup.erase_eq_filter]
      congr; funext x; by_cases e : x = p <;> simp [e]
    · rfl
    · simp [dropServer, fdOf, hp, hq]

end State

section Sweep

variable {s : State σ} {p : Ptr} {rest : List Ptr}

theorem sweep_nil (empty : s.connections = []) : sweep s = .ok s := by
  simp [sweep, empty, freeConnections]

/-- Under the invariant the sweep removes the head session, then reads `curr->next` from the
record it has just freed. -/
theorem sweep_cons (inv : Inv s) (head : s.connections = p :: rest) :
    ∃ sv, s.servers p = some sv ∧ s.closeSession p = .ok (s.remove (sv.session p).reverse) ∧
      (s.remove (sv.session p).reverse).nextOf p = .error .dangling ∧ sweep s = .error .dangling := by
  obtain ⟨sv, hp⟩ := Option.isSome_iff_exists.1 ((inv.wf.registry p).1 (head ▸ List.mem_cons_self p rest))
  have pass := State.closeSession_ok inv hp
  have cursor : (s.remove (sv.session p).reverse).nextOf p = .error .dangling :=
    State.nextOf_freed (by simp [Server.session])
  refine ⟨sv, hp, pass, cursor, ?_⟩
  rw [sweep, head, List.length_cons, List.head?_cons, freeConnections, pass, ok_bind, cursor]
  rfl

end Sweep

section Reachable

variable (cipher : Cipher σ) (cfg : Config) {s : State σ}

theorem free_connections_reads_freed_cursor (reach : Reachable cipher cfg s) :
    (s.connections = [] → sweep s = .ok s) ∧
    ∀ p rest, s.connections = p :: rest → ∃ sv, s.servers p = some sv ∧
      s.closeSession p = .ok (s.remove (sv.session p).reverse) ∧
      (s.remove (sv.session p).reverse).nextOf p = .error .dangling ∧ sweep s = .error .dangling :=
  ⟨sweep_nil, fun _ _ head => sweep_cons (reachable_good cipher cfg reach).inv head⟩

end Reachable

theorem free_connections_two_sessions :
    let s₂ := acceptCb Cipher.identity plainCfg (acceptCb Cipher.identity plainCfg (initial false : State Unit) {}) {}
    Reachable Cipher.identity plainCfg s₂ ∧ s₂.connections = [1, 6] ∧
      ((s₂.connections = [] → sweep s₂ = .ok s₂) ∧
        ∀ p rest, s₂.connections = p :: rest → ∃ sv, s₂.servers p = some sv ∧
          s₂.closeSession p = .ok (s₂.remove (sv.session p).reverse) ∧
          (s₂.remove (sv.session p).reverse).nextOf p = .error .dangling ∧ sweep s₂ = .error .dangling) :=
  have reach : Reachable Cipher.identity plainCfg
      (acceptCb Cipher.identity plainCfg (acceptCb Cipher.identity plainCfg (initial false : State Unit) {}) {}) :=
    .step (.step .init (.tick .accept {} rfl)) (.tick .accept {} (by rfl))
  ⟨reach, rfl, free_connections_reads_freed_cursor Cipher.identity plainCfg reach⟩

end Shadowsocks.Local
