import ShadowsocksLocal.Backpressure
import ShadowsocksLocal.Descriptors

/-! The two cipher streams of a session. `remote_recv_cb` passes each chunk it reads from
upstream through `ss_decrypt` in the server's `d_ctx` before it hands it towards the client, and
stage 5 of `server_recv_cb` passes each chunk of the client's through `ss_encrypt` in `e_ctx`
before it hands it upstream; a direct remote bypasses both. A stream cipher is only right if
every chunk is stepped in the context the chunk before it left, from the context
`enc_ctx_init` made. `Threaded` says this of every live session, over the `hand` events of the
trace, and that what was deciphered towards the client is exactly what was received from its
remote. `Untouched` is a step that leaves every stream alone. -/
namespace Shadowsocks.Local

variable {σ : Type}

/-- The chunk a `hand` event passes towards `fd`: the buffer before and after the cipher step. -/
def Event.handOn (fd : Fd) : Event → Option (List Byte × List Byte)
  | .hand f before after => if f = fd then some (before, after) else none
  | _ => none

theorem Event.handOn_of_ne {e : Event} {fd : Fd} (ne : e.fd ≠ fd) : e.handOn fd = none := by
  unfold Event.handOn
  split <;> simp_all [Event.fd]

theorem Event.receivedOn_of_ne {e : Event} {fd : Fd} (ne : e.fd ≠ fd) : e.receivedOn fd = [] := by
  unfold Event.receivedOn
  split <;> simp_all [Event.fd]

namespace State

/-- The chunks handed towards `fd`, in order, before and after the cipher step. -/
def hands (s : State σ) (fd : Fd) : List (List Byte × List Byte) := s.trace.filterMap (Event.handOn fd)

/-- The bytes `recv` read from `fd`, in order. -/
def received (s : State σ) (fd : Fd) : List Byte := s.trace.flatMap (Event.receivedOn fd)

variable {s : State σ} {e : Event}

@[simp] theorem emit_hands (fd : Fd) : (s.emit e).hands fd = s.hands fd ++ (e.handOn fd).toList := by
  simp only [hands, emit_trace, List.filterMap_append, List.filterMap_cons, List.filterMap_nil]
  cases e.handOn fd <;> rfl

@[simp] theorem emit_received (fd : Fd) : (s.emit e).received fd = s.received fd ++ e.receivedOn fd := by
  simp [received]

/-- What was handed towards `fd` after the cipher step is the chunks' outputs, in order. -/
theorem handed_eq_flatten (fd : Fd) : s.handed fd = ((s.hands fd).map Prod.snd).flatten := by
  simp only [handed, hands]
  induction s.trace with
  | nil => rfl
  | cons e es ih =>
    cases e with
    | hand f before after => by_cases h : f = fd <;> simp [Event.handedOn, Event.handOn, h, ih]
    | _ => simp [Event.handedOn, Event.handOn, ih]

end State

theorem Fresh.hands_eq_nil {s : State σ} {fd : Fd} (fresh : Fresh s) (past : s.next ≤ fd) : s.hands fd = [] :=
  List.filterMap_eq_nil_iff.2 fun ev m =>
    Event.handOn_of_ne (Nat.ne_of_lt (lt_of_lt_of_le (fresh.trace ev m) past))

theorem Fresh.received_eq_nil {s : State σ} {fd : Fd} (fresh : Fresh s) (past : s.next ≤ fd) : s.received fd = [] :=
  List.flatMap_eq_nil_iff.2 fun ev m =>
    Event.receivedOn_of_ne (Nat.ne_of_lt (lt_of_lt_of_le (fresh.trace ev m) past))

/-! ## Cipher runs -/

/-- A cipher run over a stream of chunks: each chunk is stepped in the context the chunk before
it left; `none` when a step fails. -/
def cipherRun (step : Option (Ptr × σ) → List Byte → Option (List Byte × Option (Ptr × σ))) :
    Option (Ptr × σ) → List (List Byte) → Option (List (List Byte) × Option (Ptr × σ))
  | ctx, [] => some ([], ctx)
  | ctx, chunk :: rest => (step ctx chunk).bind fun r =>
      (cipherRun step r.2 rest).map fun rs => (r.1 :: rs.1, rs.2)

/-- The step of a chunk on a session whose remote is `direct` or not: none, or `f`. -/
def bypass (direct : Bool) (f : Option (Ptr × σ) → List Byte → Option (List Byte × Option (Ptr × σ))) :
    Option (Ptr × σ) → List Byte → Option (List Byte × Option (Ptr × σ)) :=
  if direct then fun ctx chunk => some (chunk, ctx) else f

/-- The context block `ctx` as `enc_ctx_init` leaves it, for encryption or decryption. -/
def restart (cipher : Cipher σ) (enc : Bool) (ctx : Option (Ptr × σ)) : Option (Ptr × σ) :=
  ctx.map fun c => (c.1, cipher.init enc)

variable {step : Option (Ptr × σ) → List Byte → Option (List Byte × Option (Ptr × σ))}

/-- One more chunk at the end of a run is one more step from where the run left. -/
theorem cipherRun_snoc {ctx₀ ctx ctx' : Option (Ptr × σ)} {ins outs : List (List Byte)} {chunk out : List Byte}
    (run : cipherRun step ctx₀ ins = some (outs, ctx)) (stepped : step ctx chunk = some (out, ctx')) :
    cipherRun step ctx₀ (ins ++ [chunk]) = some (outs ++ [out], ctx') := by
  induction ins generalizing ctx₀ outs with
  | nil =>
    simp only [cipherRun, Option.some.injEq, Prod.mk.injEq] at run
    obtain ⟨rfl, rfl⟩ := run
    simp [cipherRun, stepped]
  | cons a ins ih =>
    simp only [cipherRun, Option.bind_eq_some, Option.map_eq_some'] at run
    obtain ⟨r, hr, rs, hrs, e⟩ := run
    simp only [Option.some.injEq, Prod.mk.injEq] at e
    obtain ⟨rfl, rfl⟩ := e
    simp [cipherRun, hr, ih hrs]

/-- The cipher steps keep the context block, so a run restarts it in the same block. -/
theorem restart_of_step {cipher : Cipher σ} {enc : Bool} {ctx ctx' : Option (Ptr × σ)}
    (keep : ctx'.map Prod.fst = ctx.map Prod.fst) : restart cipher enc ctx' = restart cipher enc ctx := by
  cases ctx <;> cases ctx' <;> simp_all [restart]

theorem bypass_ctx {f : Option (Ptr × σ) → List Byte → Option (List Byte × Option (Ptr × σ))} {direct : Bool}
    {ctx ctx' : Option (Ptr × σ)} {chunk out : List Byte}
    (hf : ∀ {ctx ctx' chunk out}, f ctx chunk = some (out, ctx') → ctx'.map Prod.fst = ctx.map Prod.fst)
    (h : bypass direct f ctx chunk = some (out, ctx')) : ctx'.map Prod.fst = ctx.map Prod.fst := by
  cases direct
  · exact hf h
  · simp only [bypass, if_true, Option.some.injEq, Prod.mk.injEq] at h
    rw [h.2]

/-! ## The invariant -/

/-- The two streams of every live session. A server before stage 5 has handed nothing and
holds fresh contexts. A paired server has handed towards its client, chunk by chunk, what was
received from its remote, each chunk deciphered in the context the one before it left, from a
fresh `d_ctx` to the one it holds; and towards its remote each chunk its client sent,
enciphered likewise in `e_ctx`. -/
structure Threaded (cipher : Cipher σ) (s : State σ) : Prop where
  fresh : ∀ p sv, s.servers p = some sv → sv.stage ≠ 5 →
    s.hands sv.fd = [] ∧ restart cipher false sv.dCtx = sv.dCtx ∧ restart cipher true sv.eCtx = sv.eCtx
  down : ∀ p sv q rm, s.servers p = some sv → sv.remote = some q → s.remotes q = some rm →
    ((s.hands sv.fd).map Prod.fst).flatten = s.received rm.fd ∧
      cipherRun (bypass rm.direct (ssDecrypt cipher)) (restart cipher false sv.dCtx) ((s.hands sv.fd).map Prod.fst) =
        some ((s.hands sv.fd).map Prod.snd, sv.dCtx)
  up : ∀ p sv q rm, s.servers p = some sv → sv.remote = some q → s.remotes q = some rm →
    cipherRun (bypass rm.direct (ssEncrypt cipher)) (restart cipher true sv.eCtx) ((s.hands rm.fd).map Prod.fst) =
      some ((s.hands rm.fd).map Prod.snd, sv.eCtx)

/-- `sv'` carries the streams of `sv`: the same descriptor and contexts, still at stage 5 if
`sv` was, and paired as `sv` was or not at all. -/
structure Server.Carries (sv sv' : Server σ) : Prop where
  fd : sv'.fd = sv.fd
  remote : sv'.remote = sv.remote ∨ sv'.remote = none
  stage : sv.stage = 5 → sv'.stage = 5
  dCtx : sv'.dCtx = sv.dCtx
  eCtx : sv'.eCtx = sv.eCtx

theorem Server.Carries.paired {sv sv' : Server σ} {q : Ptr} (c : sv.Carries sv') (h : sv'.remote = some q) :
    sv.remote = some q := by
  rcases c.remote with r | r
  · rw [← r, h]
  · rw [r] at h; cases h

section Carry

variable {cipher : Cipher σ} {s t : State σ}

/-- What the invariant needs of a step: each record carries its streams, nothing is handed, and
nothing more is received from a remote that is still live. -/
theorem Threaded.carry (th : Threaded cipher s)
    (servers : ∀ p sv', t.servers p = some sv' → ∃ sv, s.servers p = some sv ∧ sv.Carries sv')
    (remotes : ∀ q rm', t.remotes q = some rm' → ∃ rm, s.remotes q = some rm ∧ rm'.fd = rm.fd ∧ rm'.direct = rm.direct)
    (hands : ∀ fd, t.hands fd = s.hands fd)
    (received : ∀ q rm', t.remotes q = some rm' → t.received rm'.fd = s.received rm'.fd) : Threaded cipher t where
  fresh p sv' hp' early := by
    obtain ⟨sv, hp, c⟩ := servers p sv' hp'
    rw [hands, c.fd, c.dCtx, c.eCtx]
    exact th.fresh p sv hp fun five => early (c.stage five)
  down p sv' q rm' hp' paired hq' := by
    obtain ⟨sv, hp, c⟩ := servers p sv' hp'
    obtain ⟨rm, hq, fd, direct⟩ := remotes q rm' hq'
    rw [hands, received q rm' hq', c.fd, c.dCtx, fd, direct]
    exact th.down p sv q rm hp (c.paired paired) hq
  up p sv' q rm' hp' paired hq' := by
    obtain ⟨sv, hp, c⟩ := servers p sv' hp'
    obtain ⟨rm, hq, fd, direct⟩ := remotes q rm' hq'
    rw [hands, c.eCtx, fd, direct]
    exact th.up p sv q rm hp (c.paired paired) hq

end Carry

/-- A step that leaves every stream alone: each record carries its streams, a remote keeps its
descriptor and direction, and nothing is handed or received anywhere. -/
structure Untouched (s t : State σ) : Prop where
  servers : ∀ p sv', t.servers p = some sv' → ∃ sv, s.servers p = some sv ∧ sv.Carries sv'
  remotes : ∀ q rm', t.remotes q = some rm' → ∃ rm, s.remotes q = some rm ∧ rm'.fd = rm.fd ∧ rm'.direct = rm.direct
  hands : ∀ fd, t.hands fd = s.hands fd
  received : ∀ fd, t.received fd = s.received fd

namespace Untouched

variable {s t u : State σ} {p q : Ptr}

theorem refl (s : State σ) : Untouched s s :=
  ⟨fun _ sv h => ⟨sv, h, rfl, .inl rfl, id, rfl, rfl⟩, fun _ rm h => ⟨rm, h, rfl, rfl⟩, fun _ => rfl, fun _ => rfl⟩

theorem trans (h : Untouched s u) (h' : Untouched u t) : Untouched s t where
  servers p sv'' hp := by
    obtain ⟨sv', hp', c'⟩ := h'.servers p sv'' hp
    obtain ⟨sv, hp, c⟩ := h.servers p sv' hp'
    refine ⟨sv, hp, c'.fd.trans c.fd, ?_, c'.stage ∘ c.stage, c'.dCtx.trans c.dCtx, c'.eCtx.trans c.eCtx⟩
    rcases c'.remote with r | r
    · exact r ▸ c.remote
    · exact .inr r
  remotes q rm'' hq := by
    obtain ⟨rm', hq', fd', d'⟩ := h'.remotes q rm'' hq
    obtain ⟨rm, hq, fd, d⟩ := h.remotes q rm' hq'
    exact ⟨rm, hq, fd'.trans fd, d'.trans d⟩
  hands fd := (h'.hands fd).trans (h.hands fd)
  received fd := (h'.received fd).trans (h.received fd)

theorem threaded {cipher : Cipher σ} (h : Untouched s t) (th : Threaded cipher s) : Threaded cipher t :=
  th.carry h.servers h.remotes h.hands fun _ _ _ => h.received _

/-- A step that only forgets records and adds nothing to any stream. -/
theorem forget (h : Untouched s u) (servers : ∀ p sv, t.servers p = some sv → u.servers p = some sv)
    (remotes : ∀ q rm, t.remotes q = some rm → u.remotes q = some rm)
    (hands : ∀ fd, t.hands fd = u.hands fd) (received : ∀ fd, t.received fd = u.received fd) : Untouched s t :=
  h.trans ⟨fun p sv hp => ⟨sv, servers p sv hp, rfl, .inl rfl, id, rfl, rfl⟩,
    fun q rm hq => ⟨rm, remotes q rm hq, rfl, rfl⟩, hands, received⟩

/-- A step that moves nothing but the heap, the descriptors, the watchers and `connections`. -/
theorem same (h : Untouched s u) (servers : t.servers = u.servers) (remotes : t.remotes = u.remotes)
    (trace : t.trace = u.trace) : Untouched s t :=
  h.forget (fun _ _ hp => servers ▸ hp) (fun _ _ hq => remotes ▸ hq)
    (fun _ => by simp only [State.hands, trace]) (fun _ => by simp only [State.received, trace])

theorem start (h : Untouched s u) (w : Watcher) : Untouched s (u.start w) := h.same rfl rfl rfl

theorem stop (h : Untouched s u) (w : Watcher) : Untouched s (u.stop w) := h.same rfl rfl rfl

theorem malloc (h : Untouched s u) : Untouched s u.malloc.2 := h.same rfl rfl rfl

theorem heap (h : Untouched s u) (live : Ptr → Bool) (n : Nat) : Untouched s { u with heap := live, next := n } :=
  h.same rfl rfl rfl

theorem timerAgain (h : Untouched s u) (w : Watcher) (period : Int) : Untouched s (u.timerAgain w period) := by
  unfold State.timerAgain; split
  · exact h.start w
  · exact h.stop w

theorem free {c : Ptr} (h : Untouched s u) (freed : u.free c = .ok t) : Untouched s t := by
  rw [(State.free_eq_ok.1 freed).2]
  exact h.same rfl rfl rfl

/-- An event that hands and receives nothing: a `send` or a `close`. -/
theorem emit {e : Event} (h : Untouched s u) (quiet : ∀ fd, e.handOn fd = none ∧ e.receivedOn fd = []) :
    Untouched s (u.emit e) :=
  h.forget (fun _ _ => id) (fun _ _ => id) (fun fd => by simp [(quiet fd).1]) (fun fd => by simp [(quiet fd).2])

theorem close (h : Untouched s u) (fd : Fd) : Untouched s (u.close fd) :=
  (h.emit (e := .close fd) fun _ => ⟨rfl, rfl⟩).same rfl rfl rfl

theorem sendBytes (h : Untouched s u) (fd : Fd) (site : Site) (bytes : List Byte) (res : Send) :
    Untouched s (u.sendBytes fd site bytes res).2 := by
  cases res with
  | accept n => exact h.emit fun _ => ⟨rfl, rfl⟩
  | error e => exact h

theorem send {fd : Fd} {site : Site} {c : Buf} {idx len : Int} {res : Send} {x : Except Errno Nat}
    (h : Untouched s u) (sent : u.send fd site c idx len res = .ok (x, t)) : Untouched s t := by
  rw [show t = _ from congrArg Prod.snd (State.send_eq_ok sent).2.2.2]
  exact h.sendBytes _ _ _ _

/-- Rewriting a server record of `s` with its streams carried. -/
theorem setServer {sv sv' : Server σ} (h : Untouched s u) (hp : s.servers p = some sv) (c : sv.Carries sv') :
    Untouched s (u.setServer p sv') where
  servers x sv'' hx := by
    by_cases e : x = p
    · subst e
      simp only [State.setServer_servers, Function.update_same, Option.some.injEq] at hx
      exact ⟨sv, hp, hx ▸ c⟩
    · exact h.servers x sv'' (by simpa [e] using hx)
  remotes := h.remotes
  hands := h.hands
  received := h.received

theorem setRemote {rm rm' : Remote} (h : Untouched s u) (hq : s.remotes q = some rm) (fd : rm'.fd = rm.fd)
    (direct : rm'.direct = rm.direct) : Untouched s (u.setRemote q rm') where
  servers := h.servers
  remotes y rm'' hy := by
    by_cases e : y = q
    · subst e
      simp only [State.setRemote_remotes, Function.update_same, Option.some.injEq] at hy
      exact ⟨rm, hq, hy ▸ fd, hy ▸ direct⟩
    · exact h.remotes y rm'' (by simpa [e] using hy)
  hands := h.hands
  received := h.received

/-- Freeing a record. -/
theorem dropServer (h : Untouched s u) : Untouched s { u with servers := Function.update u.servers p none } :=
  h.forget (fun x sv hx => by by_cases e : x = p <;> simp_all [Function.update_apply]) (fun _ _ => id) (fun _ => rfl)
    (fun _ => rfl)

theorem dropRemote (h : Untouched s u) : Untouched s { u with remotes := Function.update u.remotes q none } :=
  h.forget (fun _ _ => id) (fun y rm hy => by by_cases e : y = q <;> simp_all [Function.update_apply]) (fun _ => rfl)
    (fun _ => rfl)

end Untouched

/-- A step that leaves the streams alone, then a computation that does. -/
theorem Untouched.then {s u : State σ} {x : Except Fault (State σ)} (h : Untouched s u) (k : Yields (Untouched u) x) :
    Yields (Untouched s) x :=
  fun t ht => h.trans (k t ht)

section Lifecycle

variable {s : State σ} {p q : Ptr}

namespace State

theorem free_untouched (s : State σ) (c : Ptr) : Yields (Untouched s) (s.free c) := fun _ h => (Untouched.refl s).free h

theorem freeOpt_untouched (s : State σ) (o : Option Ptr) : Yields (Untouched s) (s.freeOpt o) := by
  cases o with
  | none => exact .ok (.refl s)
  | some c => exact free_untouched s c

theorem detachServer_untouched (s : State σ) (o : Option Ptr) : Yields (Untouched s) (s.detachServer o) := by
  cases o with
  | none => exact .ok (.refl s)
  | some p => exact .bind fun sv hp => .ok ((Untouched.refl s).setServer (server?_eq_ok.1 hp) ⟨rfl, .inr rfl, id, rfl, rfl⟩)

theorem detachRemote_untouched (s : State σ) (o : Option Ptr) : Yields (Untouched s) (s.detachRemote o) := by
  cases o with
  | none => exact .ok (.refl s)
  | some q => exact .bind fun rm hq => .ok ((Untouched.refl s).setRemote (remote?_eq_ok.1 hq) rfl rfl)

theorem freeRemote_untouched (s : State σ) (q : Ptr) : Yields (Untouched s) (s.freeRemote q) := by
  unfold State.freeRemote
  exact .bind fun _ _ => .bind fun _ h₁ => .bind fun _ h₂ => .bind fun _ h₃ => .bind fun _ h₄ =>
    .bind fun _ h₅ => .bind fun _ h₆ => .ok (((((((detachServer_untouched s _ _ h₁).trans
      (freeOpt_untouched _ _ _ h₂)).trans (freeOpt_untouched _ _ _ h₃)).free h₄).free h₅).free h₆).dropRemote)

theorem freeServer_untouched (s : State σ) (p : Ptr) : Yields (Untouched s) (s.freeServer p) := by
  unfold State.freeServer
  refine .bind fun _ _ => .bind fun _ h₁ => .bind fun _ h₂ => .bind fun _ h₃ => .bind fun _ h₄ =>
    .bind fun _ h₅ => .bind fun _ h₆ => .bind fun _ h₇ => .ok ((((((?_ : Untouched s _).trans
      (freeOpt_untouched _ _ _ h₂)).trans (freeOpt_untouched _ _ _ h₃)).trans (freeOpt_untouched _ _ _ h₄)).free h₅).free h₆
      |>.free h₇ |>.dropServer)
  have erased : Untouched s { s with connections := s.connections.erase p } := (Untouched.refl s).same rfl rfl rfl
  exact erased.trans (detachRemote_untouched _ _ _ h₁)

theorem closeAndFreeRemote_untouched (s : State σ) (o : Option Ptr) : Yields (Untouched s) (s.closeAndFreeRemote o) := by
  cases o with
  | none => exact .ok (.refl s)
  | some q =>
    exact .bind fun rm _ t h => ((((((Untouched.refl s).stop _).stop _).stop _).stop _).close rm.fd).trans
      (freeRemote_untouched _ q t h)

theorem closeAndFreeServer_untouched (s : State σ) (o : Option Ptr) : Yields (Untouched s) (s.closeAndFreeServer o) := by
  cases o with
  | none => exact .ok (.refl s)
  | some p => exact .bind fun sv _ t h => ((((Untouched.refl s).stop _).stop _).close sv.fd).trans (freeServer_untouched _ p t h)

theorem teardown_untouched (s : State σ) (r o : Option Ptr) : Yields (Untouched s) (s.teardown r o) :=
  .bind fun _ h₁ t h₂ => (closeAndFreeRemote_untouched s r _ h₁).trans (closeAndFreeServer_untouched _ o t h₂)

end State

end Lifecycle

/-! ## One chunk on one session -/

section Chunk

variable {cipher : Cipher σ} {s t : State σ} {p q : Ptr} {sv : Server σ} {rm : Remote}

theorem Inv.fd_ne {f f' : Fd} (inv : Inv s) (e e' : Endpoint) (ne : e ≠ e') (he : s.fdOf e = some f)
    (he' : s.fdOf e' = some f') : f ≠ f' :=
  fun same => inv.owns.fdDistinct e e' f ne he (same ▸ he')

theorem Inv.sole_server {x : Ptr} {sv' : Server σ} (inv : Inv s) (hp : s.servers p = some sv)
    (paired : sv.remote = some q) (hx : s.servers x = some sv') (paired' : sv'.remote = some q) : x = p := by
  obtain ⟨rm, hq, back⟩ := inv.wf.pair p sv q hp paired
  obtain ⟨rm', hq', back'⟩ := inv.wf.pair x sv' q hx paired'
  rw [hq] at hq'
  cases hq'
  exact Option.some.inj (back'.symm.trans back)

/-- A `recv` on a descriptor that no remote live at the end of the step holds. -/
theorem Threaded.recv {f : Fd} {bytes : List Byte} (th : Threaded cipher s) (h : Untouched (s.emit (.recv f bytes)) t)
    (apart : ∀ y rm', t.remotes y = some rm' → rm'.fd ≠ f) : Threaded cipher t :=
  th.carry h.servers h.remotes (fun fd => by rw [h.hands]; simp [Event.handOn]) fun y rm' hy => by
    rw [h.received, State.emit_received, Event.receivedOn_of_ne (e := .recv f bytes) (apart y rm' hy).symm,
      List.append_nil]

/-- Stage 5 of `p` hands `plain` towards its remote `q` as `wire`, stepping `e_ctx` to `ctx`. -/
theorem Threaded.handUp {plain wire : List Byte} {ctx : Option (Ptr × σ)} {b : Option Buf}
    (th : Threaded cipher s) (inv : Inv s) (hp : s.servers p = some sv) (paired : sv.remote = some q)
    (hq : s.remotes q = some rm) (stepped : bypass rm.direct (ssEncrypt cipher) sv.eCtx plain = some (wire, ctx))
    (servers : ∀ x, t.servers x = if x = p then some { sv with eCtx := ctx } else s.servers x)
    (remotes : ∀ y, t.remotes y = if y = q then some { rm with buf := b } else s.remotes y)
    (trace : t.trace = s.trace ++ [.hand rm.fd plain wire]) : Threaded cipher t := by
  have five : sv.stage = 5 := (inv.wf.stage p sv hp).1 (by simp [paired])
  have hands : ∀ f, t.hands f = s.hands f ++ if rm.fd = f then [(plain, wire)] else [] := fun f => by
    by_cases e : rm.fd = f <;> simp [State.hands, trace, Event.handOn, e]
  -- the chunk goes to `q`'s descriptor, which no server and no other remote holds
  have offServer : ∀ x sv', s.servers x = some sv' → t.hands sv'.fd = s.hands sv'.fd := fun x sv' hx => by
    rw [hands, if_neg (inv.fd_ne (.remote q) (.server x) (by simp) (by simp [State.fdOf, hq])
      (by simp [State.fdOf, hx])), List.append_nil]
  have received : ∀ f, t.received f = s.received f := fun f => by simp [State.received, trace, Event.receivedOn]
  have remote : ∀ y rm', t.remotes y = some rm' → ∃ rm₀, s.remotes y = some rm₀ ∧ rm'.fd = rm₀.fd ∧
      rm'.direct = rm₀.direct ∧ (y = q ∨ rm'.fd ≠ rm.fd) := fun y rm' hy => by
    rw [remotes] at hy
    split at hy
    · subst y; cases hy; exact ⟨rm, hq, rfl, rfl, .inl rfl⟩
    · next ne => exact ⟨rm', hy, rfl, rfl, .inr (inv.fd_ne (.remote y) (.remote q)
        (fun e => ne (Endpoint.remote.inj e)) (by simp [State.fdOf, hy]) (by simp [State.fdOf, hq]))⟩
  refine ⟨fun x sv' hx early => ?_, fun x sv' y rm' hx py hy => ?_, fun x sv' y rm' hx py hy => ?_⟩
  · rw [servers] at hx
    split at hx
    · cases hx; exact absurd five early
    · rw [offServer x sv' hx]; exact th.fresh x sv' hx early
  · obtain ⟨rm₀, hy₀, fd, direct, -⟩ := remote y rm' hy
    rw [received, fd, direct]
    rw [servers] at hx
    split at hx
    · subst x; cases hx
      rw [offServer p sv hp]
      exact th.down p sv y rm₀ hp py hy₀
    · rw [offServer x sv' hx]; exact th.down x sv' y rm₀ hx py hy₀
  · obtain ⟨rm₀, hy₀, fd, direct, which⟩ := remote y rm' hy
    rw [servers] at hx
    split at hx
    · -- the session that moved: one more chunk at the end of its upstream run
      subst x; cases hx
      obtain rfl : y = q := Option.some.inj (py.symm.trans paired)
      obtain rfl := Option.some.inj (hq.symm.trans hy₀)
      rw [hands, fd, direct, if_pos rfl, List.map_append, List.map_append]
      rw [show restart cipher true ctx = restart cipher true sv.eCtx from
        restart_of_step (bypass_ctx (ssEncrypt_ctx cipher) stepped)]
      exact cipherRun_snoc (th.up p sv _ rm hp paired hq) stepped
    · next ne =>
      have apart : rm'.fd ≠ rm.fd := which.resolve_left fun e => ne (inv.sole_server hp paired hx (e ▸ py))
      rw [hands, if_neg (Ne.symm apart), List.append_nil, fd, direct]
      exact th.up x sv' y rm₀ hx py hy₀

/-- `remote_recv_cb` receives `wire` from `q` and hands `plain` towards `p`'s client, stepping
`d_ctx` to `ctx`. -/
theorem Threaded.handDown {wire plain : List Byte} {ctx : Option (Ptr × σ)} {b : Option Buf}
    (th : Threaded cipher s) (inv : Inv s) (hp : s.servers p = some sv) (paired : sv.remote = some q)
    (hq : s.remotes q = some rm) (stepped : bypass rm.direct (ssDecrypt cipher) sv.dCtx wire = some (plain, ctx))
    (servers : ∀ x, t.servers x = if x = p then some { sv with buf := b, dCtx := ctx } else s.servers x)
    (remotes : t.remotes = s.remotes) (trace : t.trace = s.trace ++ [.recv rm.fd wire, .hand sv.fd wire plain]) :
    Threaded cipher t := by
  have five : sv.stage = 5 := (inv.wf.stage p sv hp).1 (by simp [paired])
  have hands : ∀ f, t.hands f = s.hands f ++ if sv.fd = f then [(wire, plain)] else [] := fun f => by
    by_cases e : sv.fd = f <;> simp [State.hands, trace, Event.handOn, e]
  have received : ∀ f, t.received f = s.received f ++ if rm.fd = f then wire else [] := fun f => by
    by_cases e : rm.fd = f <;> simp [State.received, trace, Event.receivedOn, e]
  -- the chunk goes to `p`'s descriptor and comes from `q`'s, which nothing else holds
  have offRemote : ∀ y rm', s.remotes y = some rm' → t.hands rm'.fd = s.hands rm'.fd := fun y rm' hy => by
    rw [hands, if_neg (inv.fd_ne (.server p) (.remote y) (by simp) (by simp [State.fdOf, hp])
      (by simp [State.fdOf, hy])), List.append_nil]
  have other : ∀ x sv', s.servers x = some sv' → x ≠ p → t.hands sv'.fd = s.hands sv'.fd := fun x sv' hx ne => by
    rw [hands, if_neg (inv.fd_ne (.server p) (.server x) (fun e => ne (Endpoint.server.inj e).symm)
      (by simp [State.fdOf, hp]) (by simp [State.fdOf, hx])), List.append_nil]
  refine ⟨fun x sv' hx early => ?_, fun x sv' y rm' hx py hy => ?_, fun x sv' y rm' hx py hy => ?_⟩
  · rw [servers] at hx
    split at hx
    · cases hx; exact absurd five early
    · next ne => rw [other x sv' hx ne]; exact th.fresh x sv' hx early
  · rw [remotes] at hy
    rw [servers] at hx
    split at hx
    · -- the session that moved: one more chunk at the end of its downstream run
      subst x; cases hx
      obtain rfl : y = q := Option.some.inj (py.symm.trans paired)
      obtain rfl := Option.some.inj (hq.symm.trans hy)
      obtain ⟨flat, run⟩ := th.down p sv y rm hp paired hq
      rw [hands, received, if_pos rfl, if_pos rfl, List.map_append, List.map_append, List.flatten_append, flat]
      refine ⟨by simp, ?_⟩
      rw [show restart cipher false ctx = restart cipher false sv.dCtx from
        restart_of_step (bypass_ctx (ssDecrypt_ctx cipher) stepped)]
      exact cipherRun_snoc run stepped
    · next ne =>
      have apart : rm.fd ≠ rm'.fd := inv.fd_ne (.remote q) (.remote y)
        (fun e => ne (inv.sole_server hp paired hx (Endpoint.remote.inj e ▸ py)))
        (by simp [State.fdOf, hq]) (by simp [State.fdOf, hy])
      rw [other x sv' hx ne, received, if_neg apart, List.append_nil]
      exact th.down x sv' y rm' hx py hy
  · rw [remotes] at hy
    rw [offRemote y rm' hy]
    rw [servers] at hx
    split at hx
    · subst x; cases hx; exact th.up p sv y rm' hp py hy
    · exact th.up x sv' y rm' hx py hy

/-- The CONNECT branch pairs server `p`, before stage 5, with a new remote `q` on a fresh
descriptor: both streams of the session start empty, in fresh contexts. -/
theorem Threaded.attach {u : State σ} {sv' : Server σ} (th : Threaded cipher s) (inv : Inv s)
    (hp : s.servers p = some sv) (alone : sv.remote = none) (past : s.next ≤ q) (fdPast : s.next ≤ rm.fd)
    (fd : sv'.fd = sv.fd) (dCtx : sv'.dCtx = sv.dCtx) (eCtx : sv'.eCtx = sv.eCtx) (paired : sv'.remote = some q)
    (servers : ∀ x, x ≠ p → u.servers x = s.servers x) (remotes : ∀ y, y ≠ q → u.remotes y = s.remotes y)
    (trace : u.trace = s.trace) : Threaded cipher ((u.setServer p sv').setRemote q rm) := by
  have hands : ∀ f, ((u.setServer p sv').setRemote q rm).hands f = s.hands f := fun f => by
    simp only [State.hands, State.setRemote_trace, State.setServer_trace, trace]
  have received : ∀ f, ((u.setServer p sv').setRemote q rm).received f = s.received f := fun f => by
    simp only [State.received, State.setRemote_trace, State.setServer_trace, trace]
  obtain ⟨handed, dFresh, eFresh⟩ := th.fresh p sv hp fun five => by
    simpa [alone] using (inv.wf.stage p sv hp).2 five
  -- every other session is paired with a remote live in `s`, so not with `q`
  have old : ∀ x sv'' y, s.servers x = some sv'' → sv''.remote = some y → y ≠ q := fun x sv'' y hx py e => by
    obtain ⟨rm', hy, -⟩ := inv.wf.pair x sv'' y hx py
    simp [e, (inv.dead past).2] at hy
  refine ⟨fun x sv'' hx early => ?_, fun x sv'' y rm' hx py hy => ?_, fun x sv'' y rm' hx py hy => ?_⟩
  all_goals
    rw [hands]
    by_cases e : x = p
  · subst e
    simp only [State.setRemote_servers, State.setServer_servers, Function.update_same, Option.some.injEq] at hx
    subst hx
    rw [fd, dCtx, eCtx]
    exact ⟨handed, dFresh, eFresh⟩
  · simp only [State.setRemote_servers, State.setServer_servers, Function.update_noteq e, servers x e] at hx
    exact th.fresh x sv'' hx early
  · subst e
    simp only [State.setRemote_servers, State.setServer_servers, Function.update_same, Option.some.injEq] at hx
    subst hx
    obtain rfl : y = q := Option.some.inj (py.symm.trans paired)
    simp only [State.setRemote_remotes, Function.update_same, Option.some.injEq] at hy
    subst hy
    rw [received, fd, dCtx, handed, inv.fresh.received_eq_nil fdPast, dFresh]
    exact ⟨rfl, rfl⟩
  · simp only [State.setRemote_servers, State.setServer_servers, Function.update_noteq e, servers x e] at hx
    have ne := old x sv'' y hx py
    simp only [State.setRemote_remotes, State.setServer_remotes, Function.update_noteq ne, remotes y ne] at hy
    rw [received]
    exact th.down x sv'' y rm' hx py hy
  · subst e
    simp only [State.setRemote_servers, State.setServer_servers, Function.update_same, Option.some.injEq] at hx
    subst hx
    obtain rfl : y = q := Option.some.inj (py.symm.trans paired)
    simp only [State.setRemote_remotes, Function.update_same, Option.some.injEq] at hy
    subst hy
    rw [eCtx, inv.fresh.hands_eq_nil fdPast, eFresh]
    rfl
  · simp only [State.setRemote_servers, State.setServer_servers, Function.update_noteq e, servers x e] at hx
    have ne := old x sv'' y hx py
    simp only [State.setRemote_remotes, State.setServer_remotes, Function.update_noteq ne, remotes y ne] at hy
    exact th.up x sv'' y rm' hx py hy

/-- `accept_cb` adds a server on a fresh descriptor, at stage 0 with fresh contexts. -/
theorem Threaded.addServer (th : Threaded cipher s) (fresh : Fresh s)
    (servers : ∀ x sv', t.servers x = some sv' → s.servers x = some sv' ∨
      (sv'.remote = none ∧ s.next ≤ sv'.fd ∧ restart cipher false sv'.dCtx = sv'.dCtx ∧
        restart cipher true sv'.eCtx = sv'.eCtx))
    (remotes : t.remotes = s.remotes) (trace : t.trace = s.trace) : Threaded cipher t := by
  have hands : ∀ f, t.hands f = s.hands f := fun f => by simp only [State.hands, trace]
  have received : ∀ f, t.received f = s.received f := fun f => by simp only [State.received, trace]
  refine ⟨fun x sv' hx early => ?_, fun x sv' y rm' hx py hy => ?_, fun x sv' y rm' hx py hy => ?_⟩
  · rw [hands]
    rcases servers x sv' hx with old | ⟨-, past, d, e⟩
    · exact th.fresh x sv' old early
    · exact ⟨fresh.hands_eq_nil past, d, e⟩
  · rw [hands, received]
    rw [remotes] at hy
    rcases servers x sv' hx with old | ⟨alone, -⟩
    · exact th.down x sv' y rm' old py hy
    · simp [alone] at py
  · rw [hands]
    rw [remotes] at hy
    rcases servers x sv' hx with old | ⟨alone, -⟩
    · exact th.up x sv' y rm' old py hy
    · simp [alone] at py

end Chunk

section Relay

variable (cipher : Cipher σ) (cfg : Config) {io : Io} {s : State σ} {p q : Ptr} {sv : Server σ}

theorem sendUp_untouched {r : Int} : Yields (Untouched s) (sendUp p q io r s) := by
  unfold sendUp
  refine .bind fun rm hq => ?_
  replace hq := State.remote?_eq_ok.1 hq
  have h₁ : Untouched s (s.setRemote q { rm with bufIdx := 0, bufLen := r }) := (Untouched.refl s).setRemote hq rfl rfl
  dsimp only
  split
  · split
    · exact .ok (((h₁.stop _).start _).start _)
    refine .bind fun c _ => .bind fun sr sent => ?_
    have h₂ := h₁.send sent
    split
    · exact .ok (((h₂.setRemote hq (by rfl) (by rfl)).stop _).start _)
    · exact Untouched.then (by split_ifs <;> exact h₂.same rfl rfl rfl) (State.teardown_untouched _ _ _)
    · exact .ok (((h₂.setRemote hq (by split_ifs <;> rfl) (by split_ifs <;> rfl)).stop _).start _)
  · refine .bind fun c _ => .bind fun sr sent => ?_
    have h₂ := (Untouched.refl s).send sent
    split
    · exact .ok (((h₂.setRemote hq (by rfl) (by rfl)).stop _).start _)
    · exact h₂.then (State.teardown_untouched _ _ _)
    · split
      · exact .ok (((h₂.setRemote hq (by rfl) (by rfl)).stop _).start _)
      · exact .ok h₂

/-- Stage 5: the chunk of `remote->buf` goes through `ss_encrypt` in `e_ctx`, or through
nothing when direct, and is handed upstream as the next chunk of the session's run. -/
theorem relayUp_threaded {remote : Option Ptr} {r : Int} (th : Threaded cipher s) (inv : Inv s)
    (hp : s.servers p = some sv) (hl : sv.remote = remote) :
    Yields (Threaded cipher) (relayUp cipher p io remote r s) := by
  unfold relayUp
  cases remote with
  | none => exact (State.closeAndFreeServer_untouched _ _).mono fun _ h => h.threaded th
  | some q =>
    refine .bind fun sv' hp' => .bind fun rm hq => ?_
    obtain rfl := Option.some.inj (hp.symm.trans (State.server?_eq_ok.1 hp'))
    replace hq := State.remote?_eq_ok.1 hq
    split
    · next encrypting =>
      refine .bind fun c _ => ?_
      dsimp only
      split
      · exact .bind fun u freed => (((Untouched.refl s).free freed).setRemote hq (by rfl) (by rfl)).then
          (State.teardown_untouched _ _ _) |>.mono fun _ h => h.threaded th
      · next wire ctx encrypted =>
        have stepped : bypass rm.direct (ssEncrypt cipher) sv.eCtx (c.slice 0 r.toNat) = some (wire, ctx) := by
          simpa [bypass, by simpa using encrypting] using encrypted
        exact sendUp_untouched.mono fun _ h => h.threaded (th.handUp inv hp hl hq (b := some (c.load wire)) stepped
          (fun x => by simp [Function.update_apply]) (fun y => by simp [Function.update_apply]) rfl)
    · next direct =>
      have stepped : ∀ chunk, bypass rm.direct (ssEncrypt cipher) sv.eCtx chunk = some (chunk, sv.eCtx) := fun _ => by
        simp [bypass, by simpa using direct]
      exact sendUp_untouched.mono fun _ h => h.threaded (th.handUp inv hp hl hq (b := rm.buf) (stepped _)
        (fun x => by split_ifs with e <;> simp [e, hp]) (fun y => by split_ifs with e <;> simp [e, hq]) rfl)

theorem deliver_untouched {r : Int} : Yields (Untouched s) (deliver p q io r s) := by
  unfold deliver
  refine .bind fun sv hp => ?_
  replace hp := State.server?_eq_ok.1 hp
  refine .bind fun c _ => .bind fun sr sent => ?_
  have h₂ := (Untouched.refl s).send sent
  split
  · exact .ok (((h₂.setServer hp (by exact ⟨rfl, .inl rfl, id, rfl, rfl⟩)).stop _).start _)
  · exact h₂.then (State.teardown_untouched _ _ _)
  · split
    · exact .ok (((h₂.setServer hp (by exact ⟨rfl, .inl rfl, id, rfl, rfl⟩)).stop _).start _)
    · exact .ok h₂

theorem serverSendCb_untouched : Yields (Untouched s) (serverSendCb p io s) := by
  unfold serverSendCb
  refine .bind fun sv hp => ?_
  replace hp := State.server?_eq_ok.1 hp
  split
  · exact State.teardown_untouched _ _ _
  refine .bind fun c _ => .bind fun sr sent => ?_
  have h₂ := (Untouched.refl s).send sent
  split
  · split
    · exact h₂.then (State.teardown_untouched _ _ _)
    · exact .ok h₂
  · split
    · exact .ok (h₂.setServer hp (by exact ⟨rfl, .inl rfl, id, rfl, rfl⟩))
    · exact .bind fun _ _ => .bind fun _ _ => .ok (((h₂.setServer hp (by exact ⟨rfl, .inl rfl, id, rfl, rfl⟩)).stop _).start _)

/-- `remote_recv_cb`: the chunk received from upstream goes through `ss_decrypt` in `d_ctx`, or
through nothing when direct, and is handed towards the client as the next chunk of the run. -/
theorem remoteRecvCb_threaded (th : Threaded cipher s) (inv : Inv s) :
    Yields (Threaded cipher) (remoteRecvCb cipher cfg q io s) := by
  unfold remoteRecvCb
  refine .bind fun rm hq => ?_
  replace hq := State.remote?_eq_ok.1 hq
  have h₁ := (Untouched.refl s).timerAgain (.idleTimer q) (idleRepeat cfg)
  refine .bind fun p back => .bind fun sv hp => ?_
  replace hp : s.servers p = some sv := by simpa using State.server?_eq_ok.1 hp
  have paired := inv.paired hq (deref_eq_ok.1 back) hp
  split
  · exact .ok (h₁.threaded th)
  · exact (h₁.then (State.teardown_untouched _ _ _)).mono fun _ h => h.threaded th
  rename_i bytes _
  dsimp only
  split
  · exact (h₁.then (State.teardown_untouched _ _ _)).mono fun _ h => h.threaded th
  refine .bind fun c _ => .bind fun c' _ => ?_
  have t₂ : Threaded cipher ((s.timerAgain (.idleTimer q) (idleRepeat cfg)).setServer p { sv with buf := some c' }) :=
    (h₁.setServer hp (by exact ⟨rfl, .inl rfl, id, rfl, rfl⟩)).threaded th
  split
  · next deciphering =>
    split
    · -- `ss_decrypt` failed: the chunk was received, and the session ends
      refine .bind fun u freed t down => ?_
      have h : Untouched (((s.timerAgain (.idleTimer q) (idleRepeat cfg)).setServer p { sv with buf := some c' }).emit
          (.recv rm.fd (bytes.take bufSize))) t :=
        (((Untouched.refl _).free freed).setServer (show _ = some { sv with buf := some c' } by simp)
          (by exact ⟨rfl, .inl rfl, id, rfl, rfl⟩)).trans (State.teardown_untouched _ _ _ t down)
      refine t₂.recv h fun y rm' hy => ?_
      have gone := State.teardown_lands (u.setServer p { sv with buf := none }) (some q) (some p)
      rw [down] at gone
      obtain ⟨rm₀, hy₀, fd, -⟩ := h.remotes y rm' hy
      have ne : y ≠ q := by rintro rfl; simp [gone.2.1 y rfl] at hy
      rw [fd]
      exact inv.fd_ne (.remote y) (.remote q) (fun e => ne (Endpoint.remote.inj e))
        (by simp [State.fdOf, (by simpa using hy₀ : s.remotes y = some rm₀)]) (by simp [State.fdOf, hq])
    · next plain ctx decrypted =>
      have stepped : bypass rm.direct (ssDecrypt cipher) sv.dCtx (bytes.take bufSize) = some (plain, ctx) := by
        simpa [bypass, by simpa using deciphering] using decrypted
      exact deliver_untouched.mono fun _ h => h.threaded (th.handDown inv hp paired hq (b := some (c'.load plain))
        stepped (fun x => by by_cases e : x = p <;> simp [Function.update_apply, e]) (State.timerAgain_remotes _ _ _) (by simp))
  · next direct =>
    have stepped : bypass rm.direct (ssDecrypt cipher) sv.dCtx (bytes.take bufSize) =
        some (bytes.take bufSize, sv.dCtx) := by
      simp [bypass, by simpa using direct]
    exact deliver_untouched.mono fun _ h => h.threaded (th.handDown inv hp paired hq (b := some c') stepped
      (fun x => by by_cases e : x = p <;> simp [Function.update_apply, e]) (State.timerAgain_remotes _ _ _) (by simp))

theorem flushUp_untouched {server : Option Ptr} : Yields (Untouched s) (flushUp q server io s) := by
  unfold flushUp
  refine .bind fun rm hq => ?_
  replace hq := State.remote?_eq_ok.1 hq
  split
  · exact State.teardown_untouched _ _ _
  refine .bind fun c _ => .bind fun sr sent => ?_
  have h₂ := (Untouched.refl s).send sent
  split
  · split
    · exact h₂.then (State.teardown_untouched _ _ _)
    · exact .ok h₂
  · split
    · exact .ok (h₂.setRemote hq (by rfl) (by rfl))
    · exact .bind fun _ _ => .bind fun _ _ => .ok (((h₂.setRemote hq (by rfl) (by rfl)).stop _).start _)

theorem remoteSendCb_untouched : Yields (Untouched s) (remoteSendCb q io s) := by
  unfold remoteSendCb
  refine .bind fun rm hq => ?_
  replace hq := State.remote?_eq_ok.1 hq
  have h₁ : Untouched s ((((s.setRemote q { rm with connected := true }).stop (.connectTimer q)).start
      (.idleTimer q)).start (.remoteRecv q)) :=
    ((((Untouched.refl s).setRemote hq (by rfl) (by rfl)).stop _).start _).start _
  split
  · split
    · split
      · exact .bind fun _ _ => .bind fun _ _ => .ok ((h₁.stop _).start _)
      · exact h₁.then flushUp_untouched
    · exact State.teardown_untouched _ _ _
  · exact flushUp_untouched

theorem remoteTimeoutCb_untouched : Yields (Untouched s) (remoteTimeoutCb q s) :=
  .bind fun _ _ => State.teardown_untouched _ _ _

end Relay

section Handshake

variable (cipher : Cipher σ) (cfg : Config) {io : Io} {s : State σ} {p : Ptr} {sv : Server σ}

theorem greet_untouched (hp : s.servers p = some sv) (early : sv.stage ≠ 5) : Yields (Untouched s) (greet p io s) :=
  .bind fun sv' hp' => by
    obtain rfl := Option.some.inj (hp.symm.trans (State.server?_eq_ok.1 hp'))
    exact .ok (((Untouched.refl s).sendBytes _ _ _ _).setServer hp ⟨rfl, .inl rfl, (absurd · early), rfl, rfl⟩)

theorem reply_untouched {udp : Bool} {addr : List Byte} {l : Locals} :
    Yields (fun pass => Untouched s pass.state) (reply p io udp addr l s) := by
  unfold reply
  refine .bind fun sv hp => .bind fun c _ => .bind fun c' _ => .bind fun ⟨res, s₁⟩ sent => ?_
  have h₁ := ((Untouched.refl s).setServer (State.server?_eq_ok.1 hp) (by exact ⟨rfl, .inl rfl, id, rfl, rfl⟩)).send sent
  simp only [pure_bind]
  split
  · exact .bind fun _ h => .ok (h₁.trans (State.teardown_untouched _ _ _ _ h))
  split
  · exact .bind fun _ h => .ok (h₁.trans (State.teardown_untouched _ _ _ _ h))
  · exact .ok h₁

/-- The CONNECT branch: the server enters stage 5 paired with a new remote, both streams empty. -/
theorem connectRequest_threaded {l : Locals} {c : Buf} (th : Threaded cipher s) (inv : Inv s)
    (hp : s.servers p = some sv) (alone : sv.remote = none) :
    Yields (fun r => Threaded cipher r.2) (connectRequest cfg p io l c s) := by
  have th₁ : Threaded cipher s.malloc.2 := (Untouched.refl s).malloc.threaded th
  unfold connectRequest
  refine .bind fun atyp _ => .bind fun parsed _ => ?_
  rcases parsed with _ | ⟨header, host, service⟩
  · exact .bind fun _ h => .ok ((State.teardown_untouched _ _ _ _ h).threaded th₁)
  refine .bind fun sv₁ hp₁ => ?_
  obtain rfl : sv = sv₁ := Option.some.inj (hp.symm.trans (by simpa using State.server?_eq_ok.1 hp₁))
  have h₂ : Untouched s.malloc.2 (s.malloc.2.setServer p { sv with stage := 5 }) :=
    (Untouched.refl _).setServer hp ⟨rfl, .inl rfl, fun _ => rfl, rfl, rfl⟩
  refine .bind fun ⟨remote, s₃⟩ opened => .bind fun _ _ => ?_
  rcases connectToRemote_cases cfg opened with ⟨rfl, rfl | rfl⟩ | ⟨rfl, rfl⟩
  · exact .bind fun _ h => .ok ((h₂.trans (State.closeAndFreeServer_untouched _ _ _ h)).threaded th₁)
  · exact .bind fun _ h => .ok (((h₂.heap _ _).trans (State.closeAndFreeServer_untouched _ _ _ h)).threaded th₁)
  · refine .bind fun rm hq => .bind fun _ _ => .bind fun _ _ => .bind fun sv' hp' => .ok ?_
    simp only [State.remote?_eq_ok, State.setRemote_remotes, Function.update_same, Option.some.injEq] at hq
    simp only [State.server?_eq_ok, State.setRemote_servers, State.malloc_snd_servers, State.openFd_snd_servers,
      State.setServer_servers, Function.update_same, Option.some.injEq] at hp'
    subst hq hp'
    refine th₁.attach (malloc_inv inv) hp alone (by simp) (by simp) (by rfl) (by rfl) (by rfl) (by rfl)
      (fun x e => ?_) (fun y e => ?_) (by simp)
    · simp [Function.update_noteq e]
    · simp only [State.setServer_remotes, State.setRemote_remotes, Function.update_noteq e]
      rfl

theorem request_threaded {l : Locals} (th : Threaded cipher s) (inv : Inv s) (hp : s.servers p = some sv)
    (alone : sv.remote = none) : Yields (fun pass => Threaded cipher pass.state) (request cfg p io l s) := by
  unfold request
  refine .bind fun _ _ => .bind fun _ _ => .bind fun _ _ => ?_
  split
  · exact reply_untouched.mono fun _ h => h.threaded th
  split
  · exact .bind fun _ h => .ok ((((Untouched.refl s).sendBytes _ _ _ _).trans
      (State.teardown_untouched _ _ _ _ h)).threaded th)
  · refine .bind fun ⟨res, s₂⟩ conn => ?_
    have t₂ : Threaded cipher s₂ := connectRequest_threaded cipher cfg th inv hp alone _ conn
    cases res with
    | none => exact .ok t₂
    | some l' => exact reply_untouched.mono fun _ h => h.threaded t₂

/-- The two passes `server_recv_cb` makes. -/
theorem twoPasses_threaded {l : Locals} (th : Threaded cipher s) (g : Good s) (staged : Staged s)
    (hp : s.servers p = some sv) (hl : sv.remote = l.remote) : Yields (Threaded cipher) (twoPasses cipher cfg p io l s) := by
  unfold twoPasses
  refine .bind fun sv' hp' => ?_
  obtain rfl := Option.some.inj (hp.symm.trans (State.server?_eq_ok.1 hp'))
  split
  · exact relayUp_threaded cipher th g.inv hp hl
  next early =>
  split
  · exact (greet_untouched hp early).mono fun _ h => h.threaded th
  · refine .bind fun pass done => ?_
    have stage1 : sv.stage = 1 := by
      have := staged p sv.stage (State.stageOf_of hp)
      omega
    have alone : sv.remote = none := by
      cases hr : sv.remote with
      | none => rfl
      | some q => exact absurd ((g.inv.wf.stage p sv hp).1 (by simp [hr])) early
    have t₁ := request_threaded cipher cfg th g.inv hp alone pass done
    cases pass with
    | done u => exact .ok t₁
    | again l' u =>
      obtain ⟨g₁, sv₁, hp₁, hl₁⟩ := request_good cfg g hp stage1 hl done
      exact relayUp_threaded cipher t₁ g₁.inv hp₁ hl₁

theorem setBuffer_untouched {o : Option Ptr} {c : Buf} : Yields (Untouched s) (setBuffer s p o c) := by
  cases o with
  | none =>
    exact .bind fun sv hp => .ok ((Untouched.refl s).setServer (State.server?_eq_ok.1 hp)
      (by exact ⟨rfl, .inl rfl, id, rfl, rfl⟩))
  | some q => exact .bind fun rm hq => .ok ((Untouched.refl s).setRemote (State.remote?_eq_ok.1 hq) (by rfl) (by rfl))

theorem serverRecvCb_threaded (th : Threaded cipher s) (g : Good s) (staged : Staged s) :
    Yields (Threaded cipher) (serverRecvCb cipher cfg p io s) := by
  unfold serverRecvCb
  refine .bind fun sv hp => ?_
  replace hp := State.server?_eq_ok.1 hp
  split
  · exact .ok th
  · exact (State.teardown_untouched _ _ _).mono fun _ h => h.threaded th
  rename_i bytes _
  dsimp only
  split
  · exact (State.teardown_untouched _ _ _).mono fun _ h => h.threaded th
  refine .bind fun c hc => .bind fun c' stored => .bind fun u set => ?_
  have h₁ : Untouched s u := setBuffer_untouched u set
  -- what the client sent is received on its own descriptor, which no remote holds
  have t₂ : Threaded cipher (u.emit (.recv sv.fd (bytes.take bufSize))) :=
    (h₁.threaded th).recv (.refl _) fun y rm' hy => by
      obtain ⟨rm, hy₀, fd, -⟩ := h₁.remotes y rm' hy
      rw [fd]
      exact g.inv.fd_ne (.remote y) (.server p) (by simp) (by simp [State.fdOf, hy₀]) (by simp [State.fdOf, hp])
  have cm : Calm s (u.emit (.recv sv.fd (bytes.take bufSize))) :=
    (setBuffer_calm g ⟨sv, hp, rfl⟩ hc stored set).thenEmit (e := .recv sv.fd (bytes.take bufSize))
      (g.inv.server_fd_lt hp) silent_recv
  have staged' : Staged (u.emit (.recv sv.fd (bytes.take bufSize))) :=
    ((setBuffer_keeps set).trans (Keeps.of_eq rfl)).staged staged
  have loop : ∀ l, serverRecvLoop cipher cfg p io 2 l _ = twoPasses cipher cfg p io l _ := fun _ =>
    serverRecvLoop_two cipher cfg 0 staged'
  rw [loop]
  obtain ⟨sv', hp', same⟩ := cm.edit.server hp
  exact twoPasses_threaded cipher cfg t₂ (cm.good g) staged' hp' (congrArg (fun x => x.2.1) same)

end Handshake

section Reactor

variable (cipher : Cipher σ) (cfg : Config) {io : Io} {s : State σ} {p q : Ptr} {sv : Server σ} {rm : Remote}

theorem acceptCb_threaded (th : Threaded cipher s) (inv : Inv s) : Threaded cipher (acceptCb cipher cfg s io) := by
  unfold acceptCb
  split
  · obtain ⟨-, remotes, -, trace, -⟩ := newServer_frame cipher cfg (s := s.openFd.2) s.openFd.1 io.fresh
    refine th.addServer inv.fresh (fun x sv hx => ?_) (by simpa using remotes) (by simpa using trace)
    by_cases e : x = s.next + 1
    · subst e
      right
      by_cases m : cfg.method = 0 <;> simp [Local.newServer, m] at hx <;> subst hx <;> simp [restart]
    · left
      have keep := newServer_servers cipher cfg (s := s.openFd.2) s.openFd.1 io.fresh (x := x) (by simpa using e)
      simp only [State.openFd_fst, State.openFd_snd_servers] at keep
      simpa [keep] using hx
  · exact th

theorem dispatch_threaded {w : Watcher} (th : Threaded cipher s) (g : Good s) (staged : Staged s) :
    Yields (Threaded cipher) (dispatch cipher cfg w io s) := by
  cases w with
  | serverRecv p => exact serverRecvCb_threaded cipher cfg th g staged
  | serverSend p => exact serverSendCb_untouched.mono fun _ h => h.threaded th
  | remoteRecv q => exact remoteRecvCb_threaded cipher cfg th g.inv
  | remoteSend q => exact remoteSendCb_untouched.mono fun _ h => h.threaded th
  | connectTimer q => exact ((Untouched.refl s).stop _).then remoteTimeoutCb_untouched |>.mono fun _ h => h.threaded th
  | idleTimer q =>
    exact ((Untouched.refl s).timerAgain _ _).then remoteTimeoutCb_untouched |>.mono fun _ h => h.threaded th

theorem reachable_threaded (reach : Reachable cipher cfg s) : Threaded cipher s := by
  induction reach with
  | init =>
    exact ⟨fun _ _ h => by simp [initial] at h, fun _ _ _ _ h => by simp [initial] at h,
      fun _ _ _ _ h => by simp [initial] at h⟩
  | @step u u' reach step ih =>
    obtain ⟨t, io, h⟩ := step
    have g := reachable_good cipher cfg reach
    cases t with
    | accept =>
      cases h
      exact acceptCb_threaded cipher cfg ih g.inv
    | fire w =>
      simp only [tick] at h
      split at h
      · exact dispatch_threaded cipher cfg ih g (reachable_staged cipher cfg reach) _ h
      · cases h; exact ih

/-- The two cipher streams of every live session. Towards the client, the chunks handed are, in
order, exactly the bytes received from the session's remote, each passed through `ss_decrypt`
(nothing, when direct) in the context the chunk before it left, from the context
`enc_ctx_init` made to the one the server holds; and what the client accepted is a prefix of
what they became. Towards the remote, each chunk stage 5 handed was passed through
`ss_encrypt` in the same way, from a fresh `e_ctx` to the one the server holds. -/
theorem session_streams_threaded (reach : Reachable cipher cfg s) (hp : s.servers p = some sv)
    (paired : sv.remote = some q) (hq : s.remotes q = some rm) :
    ((s.hands sv.fd).map Prod.fst).flatten = s.received rm.fd ∧
      cipherRun (bypass rm.direct (ssDecrypt cipher)) (restart cipher false sv.dCtx) ((s.hands sv.fd).map Prod.fst) =
        some ((s.hands sv.fd).map Prod.snd, sv.dCtx) ∧
      s.relayed sv.fd <+: ((s.hands sv.fd).map Prod.snd).flatten ∧
      cipherRun (bypass rm.direct (ssEncrypt cipher)) (restart cipher true sv.eCtx) ((s.hands rm.fd).map Prod.fst) =
        some ((s.hands rm.fd).map Prod.snd, sv.eCtx) := by
  have th := reachable_threaded cipher cfg reach
  obtain ⟨flat, down⟩ := th.down p sv q rm hp paired hq
  refine ⟨flat, down, ⟨sv.pending, ?_⟩, th.up p sv q rm hp paired hq⟩
  rw [← State.handed_eq_flatten]
  exact (reachable_good cipher cfg reach).down.faithful p sv hp

/-- The client's stream. The chunks `remote_recv_cb` handed towards the client are, in order,
exactly the bytes received from the session's remote, each passed through `ss_decrypt` (nothing,
when direct) in the `d_ctx` the chunk before it left; what the client socket accepted, followed
by the window still in `server->buf`, is their outputs, in order; and while the remote may
receive into that buffer, the window is empty. -/
theorem client_stream_faithful (reach : Reachable cipher cfg s) (hp : s.servers p = some sv)
    (paired : sv.remote = some q) (hq : s.remotes q = some rm) :
    ((s.hands sv.fd).map Prod.fst).flatten = s.received rm.fd ∧
      cipherRun (bypass rm.direct (ssDecrypt cipher)) (restart cipher false sv.dCtx) ((s.hands sv.fd).map Prod.fst) =
        some ((s.hands sv.fd).map Prod.snd, sv.dCtx) ∧
      s.relayed sv.fd ++ sv.pending = ((s.hands sv.fd).map Prod.snd).flatten ∧
      (s.active (.remoteRecv q) = true → sv.bufLen = 0) := by
  have g := reachable_good cipher cfg reach
  obtain ⟨flat, down⟩ := (reachable_threaded cipher cfg reach).down p sv q rm hp paired hq
  obtain ⟨rm', hq', back⟩ := g.inv.wf.pair p sv q hp paired
  obtain rfl : rm' = rm := Option.some.inj (hq'.symm.trans hq)
  refine ⟨flat, down, ?_, fun active => g.down.drained q rm' p sv hq back hp (.inl active)⟩
  rw [← State.handed_eq_flatten]
  exact g.down.faithful p sv hp

end Reactor

/-- The client greets, asks for 127.0.0.1:80 with "GET" behind the request, the connect
completes, and the upstream answers "HI": the client's stream is that one chunk, deciphered
from what its remote received. -/
theorem session_streams_after_reply :
    ∃ s sv rm, Reachable Cipher.identity plainCfg s ∧ s.servers 1 = some sv ∧ sv.remote = some 8 ∧
      s.remotes 8 = some rm ∧ s.hands sv.fd = [([72, 73], [72, 73])] ∧
      (((s.hands sv.fd).map Prod.fst).flatten = s.received rm.fd ∧
        cipherRun (bypass rm.direct (ssDecrypt Cipher.identity)) (restart Cipher.identity false sv.dCtx)
          ((s.hands sv.fd).map Prod.fst) = some ((s.hands sv.fd).map Prod.snd, sv.dCtx) ∧
        s.relayed sv.fd <+: ((s.hands sv.fd).map Prod.snd).flatten ∧
        cipherRun (bypass rm.direct (ssEncrypt Cipher.identity)) (restart Cipher.identity true sv.eCtx)
          ((s.hands rm.fd).map Prod.fst) = some ((s.hands rm.fd).map Prod.snd, sv.eCtx)) := by
  obtain ⟨s, reach, paired, live⟩ := exists_of_run Cipher.identity plainCfg [(.accept, {}),
    (.fire (.serverRecv 1), { recv := .data [5, 1, 0], reply := .accept 2 }),
    (.fire (.serverRecv 1), { recv := .data [5, 1, 0, 1, 127, 0, 0, 1, 0, 80, 71, 69, 84], reply := .accept 10 }),
    (.fire (.remoteSend 8), { send := .accept 10 }),
    (.fire (.remoteRecv 8), { recv := .data [72, 73], send := .accept 2 })]
    (fun s => (s.servers 1).map (fun sv => (sv.remote, s.hands sv.fd)) = some (some 8, [([72, 73], [72, 73])]) ∧
      (s.remotes 8).isSome) (by decide)
  obtain ⟨sv, hp, e⟩ := Option.map_eq_some'.1 paired
  obtain ⟨paired, hands⟩ := Prod.mk.inj e
  obtain ⟨rm, hq⟩ := Option.isSome_iff_exists.1 live
  exact ⟨s, sv, rm, reach, hp, paired, hq, hands, session_streams_threaded Cipher.identity plainCfg reach hp paired hq⟩

/-- The same run, with the client socket taking one byte of the upstream's "HI": the client has
"H", and "I" waits in `server->buf`. -/
theorem client_stream_after_short_send :
    ∃ s sv rm, Reachable Cipher.identity plainCfg s ∧ s.servers 1 = some sv ∧ sv.remote = some 8 ∧
      s.remotes 8 = some rm ∧ s.hands sv.fd = [([72, 73], [72, 73])] ∧ s.relayed sv.fd = [72] ∧
      (((s.hands sv.fd).map Prod.fst).flatten = s.received rm.fd ∧
        cipherRun (bypass rm.direct (ssDecrypt Cipher.identity)) (restart Cipher.identity false sv.dCtx)
          ((s.hands sv.fd).map Prod.fst) = some ((s.hands sv.fd).map Prod.snd, sv.dCtx) ∧
        s.relayed sv.fd ++ sv.pending = ((s.hands sv.fd).map Prod.snd).flatten ∧
        (s.active (.remoteRecv 8) = true → sv.bufLen = 0)) := by
  obtain ⟨s, reach, paired, live⟩ := exists_of_run Cipher.identity plainCfg [(.accept, {}),
    (.fire (.serverRecv 1), { recv := .data [5, 1, 0], reply := .accept 2 }),
    (.fire (.serverRecv 1), { recv := .data [5, 1, 0, 1, 127, 0, 0, 1, 0, 80, 71, 69, 84], reply := .accept 10 }),
    (.fire (.remoteSend 8), { send := .accept 10 }),
    (.fire (.remoteRecv 8), { recv := .data [72, 73], send := .accept 1 })]
    (fun s => (s.servers 1).map (fun sv => (sv.remote, s.hands sv.fd)) = some (some 8, [([72, 73], [72, 73])]) ∧
      (s.servers 1).map (fun sv => s.relayed sv.fd) = some [72] ∧ (s.remotes 8).isSome) (by decide)
  obtain ⟨sv, hp, e⟩ := Option.map_eq_some'.1 paired
  obtain ⟨paired, hands⟩ := Prod.mk.inj e
  obtain ⟨relayed, live⟩ := live
  simp only [hp, Option.map_some', Option.some.injEq] at relayed
  obtain ⟨rm, hq⟩ := Option.isSome_iff_exists.1 live
  exact ⟨s, sv, rm, reach, hp, paired, hq, hands, relayed,
    client_stream_faithful Cipher.identity plainCfg reach hp paired hq⟩

end Shadowsocks.Local
