import ShadowsocksLocal.Invariant

/-! Teardown. `free_server` and `free_remote` release each block of a record once, so
under the invariant `close_and_free_remote` then `close_and_free_server` succeed and
leave `State.remove` of the session: its records, blocks, descriptors and watchers are
gone and nothing else changes. -/
namespace Shadowsocks.Local

variable {σ : Type} {s s' : State σ}

/-- `h` with the blocks of `bs` released. -/
def release (h : Ptr → Bool) (bs : List Ptr) : Ptr → Bool := fun b => h b && !decide (b ∈ bs)

@[simp] theorem release_apply {h : Ptr → Bool} {bs : List Ptr} {b : Ptr} :
    release h bs b = (h b && !decide (b ∈ bs)) := rfl

theorem release_congr {h : Ptr → Bool} {l l' : List Ptr} (same : ∀ b, b ∈ l ↔ b ∈ l') :
    release h l = release h l' := by
  funext b; simp [same b]

@[simp] theorem release_nil {h : Ptr → Bool} : release h [] = h := by funext b; simp [release]

namespace State

/-- `free` of each block in turn. -/
def freeList (s : State σ) : List Ptr → Except Fault (State σ)
  | [] => .ok s
  | b :: bs => do (← s.free b).freeList bs

theorem free_eq_freeList (b : Ptr) : s.free b = s.freeList [b] := by
  simp only [freeList, bind, Except.bind]; cases s.free b <;> rfl

theorem freeOpt_eq_freeList (o : Option Ptr) : s.freeOpt o = s.freeList o.toList := by
  cases o with
  | none => rfl
  | some b => exact free_eq_freeList b

theorem freeList_append (l₁ l₂ : List Ptr) :
    s.freeList (l₁ ++ l₂) = s.freeList l₁ >>= fun s => s.freeList l₂ := by
  induction l₁ generalizing s with
  | nil => rfl
  | cons b bs ih =>
    simp only [List.cons_append, freeList, bind, Except.bind]
    cases s.free b with
    | error => rfl
    | ok s₁ => exact ih

theorem freeList_ok {s : State σ} {l : List Ptr} (nd : l.Nodup) (live : ∀ b ∈ l, s.heap b = true) :
    s.freeList l = .ok { s with heap := release s.heap l } := by
  induction l generalizing s with
  | nil => simp only [freeList, release_nil]
  | cons b bs ih =>
    obtain ⟨notin, nd⟩ := List.nodup_cons.1 nd
    have first : s.free b = .ok { s with heap := Function.update s.heap b false } := by
      simp [free, live b (List.mem_cons_self b bs)]
    simp only [freeList, first, ok_bind]
    rw [ih nd]
    · congr 2; funext x; by_cases e : x = b <;> simp [Function.update_apply, e]
    · intro x hx
      have : x ≠ b := fun e => notin (e ▸ hx)
      simpa [Function.update_apply, this] using live x (List.mem_cons_of_mem b hx)

theorem detachRemote_none : s.detachRemote none = .ok s := rfl

/-- `free_server` releases the record's blocks once the remote's back-pointer is detached
(into `s₁`). -/
theorem freeServer_detached_ok {s s₁ : State σ} {p : Ptr} {sv : Server σ} (hp : s.servers p = some sv)
    (detach : ({ s with connections := s.connections.erase p } : State σ).detachRemote sv.remote = .ok s₁)
    (live : ∀ b ∈ sv.blocks p, s₁.heap b = true) (nd : (sv.blocks p).Nodup) :
    s.freeServer p = .ok { s₁ with
      servers := Function.update s₁.servers p none
      heap := release s₁.heap (sv.blocks p) } := by
  simp only [freeServer, server?_of hp, ok_bind, detach, freeOpt_eq_freeList, free_eq_freeList, ← bind_assoc,
    ← freeList_append]
  have perm : ((sv.eCtx.map Prod.fst).toList ++ ((sv.dCtx.map Prod.fst).toList ++ ((sv.buf.map Buf.ptr).toList ++
      ([sv.recvCtx] ++ ([sv.sendCtx] ++ [p]))))).Perm (sv.blocks p) :=
    List.perm_iff_count.2 fun x => by simp only [Server.blocks, List.count_append, List.count_cons,
      List.count_singleton', List.count_nil]; omega
  rw [freeList_ok (perm.nodup_iff.2 nd) fun b hb => live b (perm.subset hb)]
  simp only [ok_bind, pure, Except.pure, Except.ok.injEq]
  congr 1
  exact release_congr fun b => perm.mem_iff

theorem freeServer_ok {s : State σ} {p : Ptr} {sv : Server σ} (hp : s.servers p = some sv)
    (live : ∀ b ∈ sv.blocks p, s.heap b = true) (nd : (sv.blocks p).Nodup) (alone : sv.remote = none) :
    s.freeServer p = .ok { s with
      servers := Function.update s.servers p none
      connections := s.connections.erase p
      heap := release s.heap (sv.blocks p) } :=
  have detach : ({ s with connections := s.connections.erase p } : State σ).detachRemote sv.remote =
      .ok { s with connections := s.connections.erase p } := by rw [alone]; rfl
  freeServer_detached_ok hp detach live nd

/-- What a successful `close_and_free_server` of an unpaired `p` leaves. -/
def dropServer (s : State σ) (p : Ptr) (sv : Server σ) : State σ :=
  { s with
    servers := Function.update s.servers p none
    heap := release s.heap (sv.blocks p)
    fds := Function.update s.fds sv.fd false
    active := fun w => s.active w && !decide (w.owner = .server p)
    connections := s.connections.erase p
    trace := s.trace ++ [.close sv.fd] }

theorem closeAndFreeServer_ok {p : Ptr} {sv : Server σ} (hp : s.servers p = some sv)
    (live : ∀ b ∈ sv.blocks p, s.heap b = true) (nd : (sv.blocks p).Nodup) (alone : sv.remote = none) :
    s.closeAndFreeServer (some p) = .ok (s.dropServer p sv) := by
  simp only [closeAndFreeServer, server?_of hp, ok_bind]
  rw [@freeServer_ok σ _ p sv]
  · simp only [dropServer, Except.ok.injEq]
    ext1
    case active => funext w; cases w <;> simp [Function.update_apply, Watcher.owner, eq_comm, Bool.and_comm]
    all_goals try funext x
    all_goals simp [Function.update_apply]
  · simpa using hp
  · simpa using live
  · exact nd
  · exact alone

theorem detachServer_some {p : Ptr} {sv : Server σ} (hp : s.servers p = some sv) :
    s.detachServer (some p) = .ok (s.setServer p { sv with remote := none }) := by
  simp [detachServer, server?_of hp]

/-- `free_remote` releases the record's blocks once the server's back-pointer is detached
(into `s₁`). -/
theorem freeRemote_detached_ok {s s₁ : State σ} {q : Ptr} {rm : Remote} (hq : s.remotes q = some rm)
    (detach : s.detachServer rm.server = .ok s₁) (live : ∀ b ∈ rm.blocks q, s₁.heap b = true)
    (nd : (rm.blocks q).Nodup) :
    s.freeRemote q = .ok { s₁ with
      remotes := Function.update s₁.remotes q none
      heap := release s₁.heap (rm.blocks q) } := by
  simp only [freeRemote, remote?_of hq, ok_bind, detach, freeOpt_eq_freeList, free_eq_freeList, ← bind_assoc,
    ← freeList_append]
  have perm : ((rm.buf.map Buf.ptr).toList ++ (rm.addrInfo.toList ++ ([rm.recvCtx] ++ ([rm.sendCtx] ++ [q])))).Perm
      (rm.blocks q) :=
    List.perm_iff_count.2 fun x => by simp only [Remote.blocks, List.count_append, List.count_cons,
      List.count_singleton', List.count_nil]; omega
  rw [freeList_ok (perm.nodup_iff.2 nd) fun b hb => live b (perm.subset hb)]
  simp only [ok_bind, pure, Except.pure, Except.ok.injEq]
  congr 1
  exact release_congr fun b => perm.mem_iff

theorem freeRemote_ok {s : State σ} {q p : Ptr} {rm : Remote} {sv : Server σ} (hq : s.remotes q = some rm)
    (live : ∀ b ∈ rm.blocks q, s.heap b = true) (nd : (rm.blocks q).Nodup) (back : rm.server = some p)
    (hp : s.servers p = some sv) :
    s.freeRemote q = .ok { s with
      servers := Function.update s.servers p (some { sv with remote := none })
      remotes := Function.update s.remotes q none
      heap := release s.heap (rm.blocks q) } :=
  have detach : s.detachServer rm.server = .ok (s.setServer p { sv with remote := none }) := by
    rw [back, detachServer_some hp]
  freeRemote_detached_ok hq detach live nd

/-- What a successful `close_and_free_remote` of `q`, paired with `p`, leaves. -/
def dropRemote (s : State σ) (q : Ptr) (rm : Remote) (p : Ptr) (sv : Server σ) : State σ :=
  { s with
    servers := Function.update s.servers p (some { sv with remote := none })
    remotes := Function.update s.remotes q none
    heap := release s.heap (rm.blocks q)
    fds := Function.update s.fds rm.fd false
    active := fun w => s.active w && !decide (w.owner = .remote q)
    trace := s.trace ++ [.close rm.fd] }

theorem closeAndFreeRemote_ok {q p : Ptr} {rm : Remote} {sv : Server σ} (hq : s.remotes q = some rm)
    (live : ∀ b ∈ rm.blocks q, s.heap b = true) (nd : (rm.blocks q).Nodup) (back : rm.server = some p)
    (hp : s.servers p = some sv) :
    s.closeAndFreeRemote (some q) = .ok (s.dropRemote q rm p sv) := by
  simp only [closeAndFreeRemote, remote?_of hq, ok_bind]
  rw [@freeRemote_ok σ _ q p rm sv]
  · simp only [dropRemote, Except.ok.injEq]
    ext1
    case active => funext w; cases w <;> simp [Function.update_apply, Watcher.owner, eq_comm, Bool.and_comm]
    all_goals try funext x
    all_goals simp [Function.update_apply]
  · simpa using hq
  · simpa using live
  · exact nd
  · exact back
  · simpa using hp

end State

/-- The endpoints of the session of server `p`, in the order teardown closes them. -/
def Server.session (p : Ptr) (sv : Server σ) : List Endpoint :=
  (sv.remote.map .remote).toList ++ [.server p]

namespace State

/-- The state less the endpoints `es`: their records, blocks, descriptors (closed in order) and
watchers. -/
@[simps]
def remove (s : State σ) (es : List Endpoint) : State σ :=
  { s with
    servers := fun x => if .server x ∈ es then none else s.servers x
    remotes := fun y => if .remote y ∈ es then none else s.remotes y
    heap := release s.heap (es.flatMap s.owned)
    fds := fun fd => s.fds fd && !decide (∃ e ∈ es, s.fdOf e = some fd)
    active := fun w => s.active w && !decide (w.owner ∈ es)
    connections := s.connections.filter fun x => !decide (.server x ∈ es)
    trace := s.trace ++ es.filterMap fun e => (s.fdOf e).map .close }

variable {es : List Endpoint}

theorem remove_owned (e : Endpoint) : (s.remove es).owned e = if e ∈ es then [] else s.owned e := by
  cases e <;> split <;> simp_all [owned]

theorem remove_fdOf (e : Endpoint) : (s.remove es).fdOf e = if e ∈ es then none else s.fdOf e := by
  cases e <;> split <;> simp_all [fdOf]

theorem remove_isLive (e : Endpoint) : (s.remove es).isLive e ↔ s.isLive e ∧ e ∉ es := by
  cases e <;> simp only [isLive, remove_servers, remove_remotes] <;> split <;> simp_all

theorem owned_setServer {p : Ptr} {sv sv' : Server σ} (hp : s.servers p = some sv)
    (same : sv'.blocks p = sv.blocks p) : (s.setServer p sv').owned = s.owned := by
  funext e; cases e with
  | server x => by_cases h : x = p <;> simp [owned, h, hp, same]
  | remote y => rfl

theorem fdOf_setServer {p : Ptr} {sv sv' : Server σ} (hp : s.servers p = some sv) (sameFd : sv'.fd = sv.fd) :
    (s.setServer p sv').fdOf = s.fdOf := by
  funext e; cases e with
  | server x => by_cases h : x = p <;> simp [fdOf, h, hp, sameFd]
  | remote y => rfl

/-- Removing a server forgets what its record held beyond its blocks and descriptor. -/
theorem remove_setServer {p : Ptr} {sv sv' : Server σ} (hp : s.servers p = some sv)
    (same : sv'.blocks p = sv.blocks p) (sameFd : sv'.fd = sv.fd) (gone : Endpoint.server p ∈ es) :
    (s.setServer p sv').remove es = s.remove es := by
  ext1
  · funext x; by_cases h : x = p <;> simp_all
  · rfl
  · simp only [remove, owned_setServer hp same]; rfl
  · simp only [remove, fdOf_setServer hp sameFd]; rfl
  · rfl
  · rfl
  · rfl
  · rfl
  · simp only [remove, fdOf_setServer hp sameFd]; rfl

theorem dropServer_eq_remove {p : Ptr} {sv : Server σ} (nd : s.connections.Nodup)
    (hp : s.servers p = some sv) : s.dropServer p sv = s.remove [.server p] := by
  ext1
  · funext x; by_cases e : x = p <;> simp [dropServer, e]
  · funext y; simp [dropServer]
  · funext b; simp [dropServer, owned, hp]
  · funext fd; by_cases e : fd = sv.fd <;> simp [dropServer, fdOf, hp, Function.update_apply, e, eq_comm]
  · rfl
  · funext w; simp [dropServer]
  · simp only [dropServer, remove_connections, nd.erase_eq_filter]
    congr; funext x; by_cases e : x = p <;> simp [e]
  · rfl
  · simp [dropServer, fdOf, hp]

theorem dropRemote_dropServer_eq_remove {p q : Ptr} {sv : Server σ} {rm : Remote}
    (nd : s.connections.Nodup) (hp : s.servers p = some sv) (hq : s.remotes q = some rm) :
    (s.dropRemote q rm p sv).dropServer p { sv with remote := none } =
      s.remove [.remote q, .server p] := by
  ext1
  · funext x; by_cases e : x = p <;> simp [dropServer, dropRemote, e]
  · funext y; by_cases e : y = q <;> simp [dropServer, dropRemote, e]
  · funext b
    have same : Server.blocks p { sv with remote := none } = sv.blocks p := rfl
    simp [dropServer, dropRemote, owned, hp, hq, same, Bool.and_assoc]
  · funext fd
    by_cases e : fd = sv.fd <;> by_cases e' : fd = rm.fd <;>
      simp [dropServer, dropRemote, fdOf, hp, hq, Function.update_apply, e, e', eq_comm]
  · rfl
  · funext w; simp [dropServer, dropRemote, Bool.and_assoc, or_comm]
  · simp only [dropServer, dropRemote, remove_connections, nd.erase_eq_filter]
    congr; funext x; by_cases e : x = p <;> simp [e]
  · rfl
  · simp [dropServer, dropRemote, fdOf, hp, hq]

end State

/-- A set of endpoints that holds both ends of every session it touches. -/
def Closed (s : State σ) (es : List Endpoint) : Prop :=
  ∀ p sv q, s.servers p = some sv → sv.remote = some q → (Endpoint.server p ∈ es ↔ Endpoint.remote q ∈ es)

variable {es : List Endpoint}

theorem remove_wf (wf : Wf s) (closed : Closed s es) : Wf (s.remove es) where
  pair x sv y hx hy := by
    simp only [State.remove_servers] at hx
    split at hx
    · cases hx
    · next keep =>
      obtain ⟨rm, hrm, back⟩ := wf.pair x sv y hx hy
      refine ⟨rm, ?_, back⟩
      rw [State.remove_remotes, if_neg fun m => keep ((closed x sv y hx hy).2 m), hrm]
  back y rm hy := by
    simp only [State.remove_remotes] at hy
    split at hy
    · cases hy
    · next keep =>
      obtain ⟨x, sv, hx, hsv, hr⟩ := wf.back y rm hy
      refine ⟨x, sv, hx, ?_, hr⟩
      rw [State.remove_servers, if_neg fun m => keep ((closed x sv y hsv hr).1 m), hsv]
  stage x sv hx := by
    simp only [State.remove_servers] at hx
    split at hx
    · cases hx
    · exact wf.stage x sv hx
  nodup := wf.nodup.filter _
  registry x := by by_cases m : Endpoint.server x ∈ es <;> simp [m, wf.registry]
  armed w a := by
    simp only [State.remove_active, Bool.and_eq_true, Bool.not_eq_true', decide_eq_false_iff_not] at a
    exact (State.remove_isLive _).2 ⟨wf.armed w a.1, a.2⟩

theorem remove_owns (own : Owns s) : Owns (s.remove es) where
  live e b m := by
    rw [State.remove_owned] at m
    split at m
    · cases m
    · next keep =>
      simp only [State.remove_heap, release_apply, own.live e b m, Bool.true_and, Bool.not_eq_true',
        decide_eq_false_iff_not, List.mem_flatMap, not_exists, not_and]
      intro e' gone m'
      exact own.disjoint e e' (by rintro rfl; exact keep gone) b m m'
  nodup e := by
    rw [State.remove_owned]
    split
    · exact List.nodup_nil
    · exact own.nodup e
  disjoint e e' ne b m m' := by
    rw [State.remove_owned] at m m'
    split at m
    · cases m
    · split at m'
      · cases m'
      · exact own.disjoint e e' ne b m m'
  fdOpen e fd h := by
    rw [State.remove_fdOf] at h
    split at h
    · cases h
    · next keep =>
      simp only [State.remove_fds, own.fdOpen e fd h, Bool.true_and, Bool.not_eq_true',
        decide_eq_false_iff_not, not_exists, not_and]
      intro e' gone h'
      exact own.fdDistinct e e' fd (by rintro rfl; exact keep gone) h h'
  fdDistinct e e' fd ne h h' := by
    rw [State.remove_fdOf] at h h'
    split at h
    · cases h
    · split at h'
      · cases h'
      · exact own.fdDistinct e e' fd ne h h'

theorem remove_fresh (own : Owns s) (fresh : Fresh s) : Fresh (s.remove es) where
  heap b h := by
    simp only [State.remove_heap, release_apply, Bool.and_eq_true] at h
    exact fresh.heap b h.1
  fds fd h := by
    simp only [State.remove_fds, Bool.and_eq_true] at h
    exact fresh.fds fd h.1
  trace e m := by
    simp only [State.remove_trace, List.mem_append, List.mem_filterMap, Option.map_eq_some'] at m
    rcases m with m | ⟨e', -, fd, h, rfl⟩
    · exact fresh.trace e m
    · exact fresh.fds fd (own.fdOpen e' fd h)

/-- Removing a set of endpoints that splits no session keeps the invariant. -/
theorem remove_inv (inv : Inv s) (closed : Closed s es) : Inv (s.remove es) :=
  ⟨remove_wf inv.wf closed, remove_owns inv.owns, remove_fresh inv.owns inv.fresh⟩

theorem session_closed {p : Ptr} {sv : Server σ} (wf : Wf s) (hp : s.servers p = some sv) :
    Closed s (sv.session p) := by
  intro x sv' y hx hy
  obtain ⟨rm, hrm, back⟩ := wf.pair x sv' y hx hy
  by_cases e : x = p
  · subst e
    obtain rfl : sv' = sv := Option.some.inj (hx.symm.trans hp)
    simp [Server.session, hy]
  · have other : sv.remote ≠ some y := fun hr => by
      obtain ⟨rm', hrm', back'⟩ := wf.pair p sv y hp hr
      rw [hrm] at hrm'
      cases hrm'
      exact e (Option.some.inj (back.symm.trans back'))
    cases h : sv.remote <;> simp_all [Server.session, eq_comm]

theorem Owns.server_blocks {p : Ptr} {sv : Server σ} (own : Owns s) (hp : s.servers p = some sv) :
    (∀ b ∈ sv.blocks p, s.heap b = true) ∧ (sv.blocks p).Nodup := by
  have := own.nodup (.server p)
  simp only [State.owned, hp, Option.map_some', Option.getD_some] at this
  exact ⟨fun b m => own.live (.server p) b (by simpa [State.owned, hp] using m), this⟩

theorem Owns.remote_blocks {q : Ptr} {rm : Remote} (own : Owns s) (hq : s.remotes q = some rm) :
    (∀ b ∈ rm.blocks q, s.heap b = true) ∧ (rm.blocks q).Nodup := by
  have := own.nodup (.remote q)
  simp only [State.owned, hq, Option.map_some', Option.getD_some] at this
  exact ⟨fun b m => own.live (.remote q) b (by simpa [State.owned, hq] using m), this⟩

/-- Under the invariant the teardown of a session succeeds and removes exactly that session. -/
theorem teardown_ok {p : Ptr} {sv : Server σ} (inv : Inv s) (hp : s.servers p = some sv) :
    s.teardown sv.remote (some p) = .ok (s.remove (sv.session p)) := by
  obtain ⟨live, nd⟩ := inv.owns.server_blocks hp
  unfold State.teardown
  cases hr : sv.remote with
  | none =>
    rw [State.closeAndFreeRemote, ok_bind, State.closeAndFreeServer_ok hp live nd hr,
      State.dropServer_eq_remove inv.wf.nodup hp]
    simp [Server.session, hr]
  | some q =>
    obtain ⟨rm, hq, back⟩ := inv.wf.pair p sv q hp hr
    obtain ⟨liveR, ndR⟩ := inv.owns.remote_blocks hq
    have apart : ∀ b ∈ sv.blocks p, b ∉ rm.blocks q := fun b m m' =>
      inv.owns.disjoint (.server p) (.remote q) (by simp) b
        (by simpa [State.owned, hp] using m) (by simpa [State.owned, hq] using m')
    rw [State.closeAndFreeRemote_ok hq liveR ndR back hp, ok_bind,
      @State.closeAndFreeServer_ok σ _ p { sv with remote := none },
      State.dropRemote_dropServer_eq_remove inv.wf.nodup hp hq]
    · simp [Server.session, hr]
    · simp [State.dropRemote]
    · intro b m
      simp [State.dropRemote, live b m, apart b m]
    · exact nd
    · rfl

/-! ## Releasing one block of a record -/

section Release

variable {u : State σ} {p q : Ptr} {sv : Server σ} {rm : Remote}

theorem Owns.shrink {t : State σ} {x : Ptr} {e₀ : Endpoint} (own : Owns s) (hx : x ∈ s.owned e₀)
    (owned : ∀ e, (t.owned e).Sublist (s.owned e)) (dropped : x ∉ t.owned e₀)
    (heap : t.heap = Function.update s.heap x false) (fdOf : t.fdOf = s.fdOf) (fds : t.fds = s.fds) :
    Owns t where
  live e b m := by
    have gone : b ≠ x := by
      rintro rfl
      by_cases h : e = e₀
      · exact dropped (h ▸ m)
      · exact own.disjoint e₀ e (Ne.symm h) b hx ((owned e).subset m)
    simpa [heap, Function.update_apply, gone] using own.live e b ((owned e).subset m)
  nodup e := (own.nodup e).sublist (owned e)
  disjoint e e' ne b m m' := own.disjoint e e' ne b ((owned e).subset m) ((owned e').subset m')
  fdOpen e fd h := fds ▸ own.fdOpen e fd (fdOf ▸ h)
  fdDistinct e e' fd ne h h' := by rw [fdOf] at h h'; exact own.fdDistinct e e' fd ne h h'

/-- Freeing block `x` of endpoint `e₀` and dropping it from the record keeps the invariant. -/
theorem Inv.forget {t : State σ} {x : Ptr} {e₀ : Endpoint} (inv : Inv s) (hx : x ∈ s.owned e₀) (wf : Wf t)
    (owned : ∀ e, (t.owned e).Sublist (s.owned e)) (dropped : x ∉ t.owned e₀)
    (heap : t.heap = Function.update s.heap x false) (fdOf : t.fdOf = s.fdOf) (fds : t.fds = s.fds)
    (next : t.next = s.next) (trace : t.trace = s.trace) : Inv t where
  wf := wf
  owns := inv.owns.shrink hx owned dropped heap fdOf fds
  fresh := by
    refine ⟨fun b hb => ?_, fun fd hf => ?_, fun e m => ?_⟩
    · rw [next]
      by_cases h : b = x
      · simp [heap, h] at hb
      · exact inv.fresh.heap b (by simpa [heap, h] using hb)
    · exact next ▸ inv.fresh.fds fd (fds ▸ hf)
    · exact next ▸ inv.fresh.trace e (trace ▸ m)

/-- `free(server->buf)` with the record left without it, before a teardown. -/
theorem Inv.dropServerBuf {u₂ : State σ} {b : Buf} (inv : Inv u) (hp : u.servers p = some sv)
    (hb : sv.buf = some b) (h : u.free b.ptr = .ok u₂) : Inv (u₂.setServer p { sv with buf := none }) := by
  obtain ⟨-, rfl⟩ := State.free_eq_ok.1 h
  have nd : (sv.blocks p).Nodup := (inv.owns.server_blocks hp).2
  have shape : Server.blocks p sv = p :: sv.recvCtx :: sv.sendCtx :: b.ptr ::
      ((sv.eCtx.map Prod.fst).toList ++ (sv.dCtx.map Prod.fst).toList) := by
    simp [Server.blocks, hb]
  have less : Server.blocks p { sv with buf := none } = p :: sv.recvCtx :: sv.sendCtx ::
      ((sv.eCtx.map Prod.fst).toList ++ (sv.dCtx.map Prod.fst).toList) := by
    simp [Server.blocks]
  rw [shape] at nd
  refine @Inv.forget σ u _ b.ptr (.server p) inv (by simp [State.owned, hp, shape])
    (inv.wf.relink (fun x => ?_) (fun _ => rfl) rfl fun _ a => .inl a) (fun e => ?_) ?_ rfl ?_ rfl rfl rfl
  · by_cases e : x = p <;> simp [e, hp]
  · cases e with
    | server x =>
      by_cases e : x = p
      · subst e
        simp only [State.owned, State.setServer_servers, Function.update_same, Option.map_some',
          Option.getD_some, hp, less, shape]
        exact .cons₂ _ (.cons₂ _ (.cons₂ _ (.cons _ (.refl _))))
      · simp [State.owned, e]
    | remote y => exact .refl _
  · simp only [State.owned, State.setServer_servers, Function.update_same, Option.map_some', Option.getD_some,
      less]
    simp only [List.nodup_cons, List.mem_cons, not_or] at nd
    simp only [List.mem_cons, not_or]
    exact ⟨Ne.symm nd.1.2.2.1, Ne.symm nd.2.1.2.1, Ne.symm nd.2.2.1.1, nd.2.2.2.1⟩
  · funext e
    cases e with
    | server x => by_cases e : x = p <;> simp [State.fdOf, e, hp]
    | remote y => rfl

/-- `free(remote->buf)` with the record left without it, before a teardown. -/
theorem Inv.dropRemoteBuf {u₂ : State σ} {b : Buf} (inv : Inv u) (hq : u.remotes q = some rm)
    (hb : rm.buf = some b) (h : u.free b.ptr = .ok u₂) : Inv (u₂.setRemote q { rm with buf := none }) := by
  obtain ⟨-, rfl⟩ := State.free_eq_ok.1 h
  have nd : (rm.blocks q).Nodup := (inv.owns.remote_blocks hq).2
  have shape : Remote.blocks q rm = q :: rm.recvCtx :: rm.sendCtx :: b.ptr :: rm.addrInfo.toList := by
    simp [Remote.blocks, hb]
  have less : Remote.blocks q { rm with buf := none } = q :: rm.recvCtx :: rm.sendCtx :: rm.addrInfo.toList := by
    simp [Remote.blocks]
  rw [shape] at nd
  refine @Inv.forget σ u _ b.ptr (.remote q) inv (by simp [State.owned, hq, shape])
    (inv.wf.relink (fun _ => rfl) (fun y => ?_) rfl fun _ a => .inl a) (fun e => ?_) ?_ rfl ?_ rfl rfl rfl
  · by_cases e : y = q <;> simp [e, hq]
  · cases e with
    | server x => exact .refl _
    | remote y =>
      by_cases e : y = q
      · subst e
        simp only [State.owned, State.setRemote_remotes, Function.update_same, Option.map_some',
          Option.getD_some, hq, less, shape]
        exact .cons₂ _ (.cons₂ _ (.cons₂ _ (.cons _ (.refl _))))
      · simp [State.owned, e]
  · simp only [State.owned, State.setRemote_remotes, Function.update_same, Option.map_some', Option.getD_some,
      less]
    simp only [List.nodup_cons, List.mem_cons, not_or] at nd
    simp only [List.mem_cons, not_or]
    exact ⟨Ne.symm nd.1.2.2.1, Ne.symm nd.2.1.2.1, Ne.symm nd.2.2.1.1, nd.2.2.2.1⟩
  · funext e
    cases e with
    | server x => rfl
    | remote y => by_cases e : y = q <;> simp [State.fdOf, e, hq]

end Release

end Shadowsocks.Local
