import ShadowsocksLocal.Request

/-! The stage machine of `server_recv_cb`. Three places write `server->stage`: `new_server`
sets 0, the stage-0 branch sets 1 and the CONNECT branch sets 5. Every other write of a server
record copies a record the callback has read, so a callback keeps every stage except the one
move of its own server. The stage-1 pass that goes round again has set stage 5, so from a stage
in {0, 1, 5} the `while (1)` loop is the straight-line program `twoPasses`: it returns within two
passes and never reaches the end of its fuel. -/
namespace Shadowsocks.Local

variable {σ : Type}

/-- The stage of the server at `p`, if `p` is a live server. -/
def State.stageOf (s : State σ) (p : Ptr) : Option Nat := (s.servers p).map Server.stage

/-- Every server of `t` was in `s` at the same stage. -/
def Keeps (s t : State σ) : Prop := ∀ x n, t.stageOf x = some n → s.stageOf x = some n

/-- As `Keeps`, except that the server `p` may have gone from stage `a` to stage `b`. -/
def Lifts (p : Ptr) (a b : Nat) (s t : State σ) : Prop :=
  ∀ x n, t.stageOf x = some n → s.stageOf x = some n ∨ x = p ∧ s.stageOf x = some a ∧ n = b

/-- The stage moves of the source: none, 0 to 1, and 1 to 5. -/
def Advance (m n : Nat) : Prop := n = m ∨ m = 0 ∧ n = 1 ∨ m = 1 ∧ n = 5

/-- What one step may do to the stages: a new server starts at stage 0, and a server that was
there keeps its stage or advances. -/
def Moves (s t : State σ) : Prop :=
  ∀ x n, t.stageOf x = some n → s.stageOf x = none ∧ n = 0 ∨ ∃ m, s.stageOf x = some m ∧ Advance m n

/-- Every server is at stage 0, 1 or 5. -/
def Staged (s : State σ) : Prop := ∀ x n, s.stageOf x = some n → n = 0 ∨ n = 1 ∨ n = 5

/-- What a stage-1 pass does to the stages: the server may go from `a` to 5, and a pass that
goes round has put it at 5. -/
def PassLifts (p : Ptr) (a : Nat) (s : State σ) : Pass σ → Prop
  | .done t => Lifts p a 5 s t
  | .again _ t => Lifts p a 5 s t ∧ t.stageOf p = some 5

variable {s t u : State σ} {p : Ptr} {sv sv' : Server σ} {a b : Nat}

theorem Advance.le {m n : Nat} (h : Advance m n) : m ≤ n := by
  unfold Advance at h; omega

@[simp] theorem State.stageOf_setServer {x : Ptr} :
    (s.setServer p sv).stageOf x = if x = p then some sv.stage else s.stageOf x := by
  by_cases hx : x = p <;> simp [State.stageOf, hx]

theorem State.stageOf_of (hp : s.servers p = some sv) : s.stageOf p = some sv.stage := by
  simp [State.stageOf, hp]

namespace Keeps

theorem refl (s : State σ) : Keeps s s := fun _ _ => id

theorem trans (h : Keeps s t) (h' : Keeps t u) : Keeps s u := fun x n e => h x n (h' x n e)

theorem of_eq (h : t.servers = s.servers) : Keeps s t := by
  intro x n e; rwa [State.stageOf, h] at e

/-- Writing, into a later state, a record at the stage `p` had. -/
theorem setServer (k : Keeps s u) (hp : s.servers p = some sv) (same : sv'.stage = sv.stage) :
    Keeps s (u.setServer p sv') := by
  intro x n e
  rw [State.stageOf_setServer] at e
  split_ifs at e with hx
  · subst hx; cases e; rw [same]; exact State.stageOf_of hp
  · exact k x n e

theorem drop (s : State σ) (p : Ptr) : Keeps s { s with servers := Function.update s.servers p none } := by
  intro x n e
  by_cases hx : x = p
  · subst hx; simp [State.stageOf] at e
  · simpa [State.stageOf, hx] using e

/-- `k` read between states with the same servers as `s` and `t`. -/
theorem via {v : State σ} (k : Keeps u v) (pre : u.servers = s.servers) (post : t.servers = v.servers) :
    Keeps s t :=
  (of_eq pre).trans (k.trans (of_eq post))

theorem lifts (k : Keeps s t) : Lifts p a b s t := fun x n e => .inl (k x n e)

theorem moves (k : Keeps s t) : Moves s t := fun x n e => .inr ⟨n, k x n e, .inl rfl⟩

theorem staged (k : Keeps s t) (st : Staged s) : Staged t := fun x n e => st x n (k x n e)

theorem free {c : Ptr} (h : s.free c = .ok t) : Keeps s t := of_eq (by rw [(State.free_eq_ok.1 h).2])

theorem freeOpt {o : Option Ptr} (h : s.freeOpt o = .ok t) : Keeps s t := by
  cases o with
  | none => cases h; exact refl s
  | some c => exact free h

theorem detachServer {o : Option Ptr} (h : s.detachServer o = .ok t) : Keeps s t := by
  cases o with
  | none => cases h; exact refl s
  | some x =>
    obtain ⟨sv, hsv, h⟩ := bind_eq_ok.1 h
    obtain rfl := pure_eq_ok.1 h
    exact (refl s).setServer (State.server?_eq_ok.1 hsv) rfl

theorem detachRemote {o : Option Ptr} (h : s.detachRemote o = .ok t) : Keeps s t := by
  cases o with
  | none => cases h; exact refl s
  | some q =>
    obtain ⟨rm, -, h⟩ := bind_eq_ok.1 h
    obtain rfl := pure_eq_ok.1 h
    exact of_eq rfl

theorem freeRemote {q : Ptr} (h : s.freeRemote q = .ok t) : Keeps s t := by
  unfold State.freeRemote at h
  obtain ⟨rm, -, h⟩ := bind_eq_ok.1 h
  obtain ⟨s₁, h₁, h⟩ := bind_eq_ok.1 h
  obtain ⟨s₂, h₂, h⟩ := bind_eq_ok.1 h
  obtain ⟨s₃, h₃, h⟩ := bind_eq_ok.1 h
  obtain ⟨s₄, h₄, h⟩ := bind_eq_ok.1 h
  obtain ⟨s₅, h₅, h⟩ := bind_eq_ok.1 h
  obtain ⟨s₆, h₆, h⟩ := bind_eq_ok.1 h
  obtain rfl := pure_eq_ok.1 h
  exact (detachServer h₁).trans <| (freeOpt h₂).trans <| (freeOpt h₃).trans <| (free h₄).trans <|
    (free h₅).trans <| (free h₆).trans (of_eq rfl)

theorem freeServer {x : Ptr} (h : s.freeServer x = .ok t) : Keeps s t := by
  unfold State.freeServer at h
  obtain ⟨sv, -, h⟩ := bind_eq_ok.1 h
  obtain ⟨s₁, h₁, h⟩ := bind_eq_ok.1 h
  obtain ⟨s₂, h₂, h⟩ := bind_eq_ok.1 h
  obtain ⟨s₃, h₃, h⟩ := bind_eq_ok.1 h
  obtain ⟨s₄, h₄, h⟩ := bind_eq_ok.1 h
  obtain ⟨s₅, h₅, h⟩ := bind_eq_ok.1 h
  obtain ⟨s₆, h₆, h⟩ := bind_eq_ok.1 h
  obtain ⟨s₇, h₇, h⟩ := bind_eq_ok.1 h
  obtain rfl := pure_eq_ok.1 h
  exact (detachRemote h₁).trans <| (freeOpt h₂).trans <| (freeOpt h₃).trans <| (freeOpt h₄).trans <|
    (free h₅).trans <| (free h₆).trans <| (free h₇).trans (drop s₇ x)

theorem closeAndFreeRemote {o : Option Ptr} (h : s.closeAndFreeRemote o = .ok t) : Keeps s t := by
  cases o with
  | none => cases h; exact refl s
  | some q =>
    obtain ⟨rm, -, h⟩ := bind_eq_ok.1 h
    exact (freeRemote h).via (by funext; simp) rfl

theorem closeAndFreeServer {o : Option Ptr} (h : s.closeAndFreeServer o = .ok t) : Keeps s t := by
  cases o with
  | none => cases h; exact refl s
  | some x =>
    obtain ⟨sv, -, h⟩ := bind_eq_ok.1 h
    exact (freeServer h).via (by funext; simp) rfl

theorem teardown {q x : Option Ptr} (h : s.teardown q x = .ok t) : Keeps s t := by
  obtain ⟨s₁, h₁, h⟩ := bind_eq_ok.1 h
  exact (closeAndFreeRemote h₁).trans (closeAndFreeServer h)

theorem send {fd : Fd} {site : Site} {c : Buf} {idx len : Int} {res : Send} {x : Except Errno Nat}
    (h : s.send fd site c idx len res = .ok (x, t)) : Keeps s t :=
  of_eq (State.send_servers h)

end Keeps

namespace Lifts

theorem keeps_trans (k : Keeps s u) (h : Lifts p a b u t) : Lifts p a b s t := by
  intro x n e
  rcases h x n e with e' | ⟨hx, e', hn⟩
  · exact .inl (k x n e')
  · exact .inr ⟨hx, k x a e', hn⟩

theorem trans_keeps (h : Lifts p a b s u) (k : Keeps u t) : Lifts p a b s t :=
  fun x n e => h x n (k x n e)

/-- Writing, into a later state, a record at stage `b` over the record of `p`. -/
theorem setServer (k : Keeps s u) (hp : s.servers p = some sv) (hb : sv'.stage = b) :
    Lifts p sv.stage b s (u.setServer p sv') := by
  intro x n e
  rw [State.stageOf_setServer] at e
  split_ifs at e with hx
  · subst hx; cases e; exact .inr ⟨rfl, State.stageOf_of hp, hb⟩
  · exact .inl (k x n e)

/-- A lift from a stage `p` is not at moves nothing. -/
theorem keeps {c : Nat} (h : Lifts p a b s t) (hp : s.stageOf p = some c) (ne : c ≠ a) : Keeps s t := by
  intro x n e
  rcases h x n e with e' | ⟨rfl, e', -⟩
  · exact e'
  · exact absurd (Option.some.inj (hp.symm.trans e')) ne

theorem moves (h : Lifts p a b s t) (step : Advance a b) : Moves s t := by
  intro x n e
  rcases h x n e with e' | ⟨-, e', rfl⟩
  · exact .inr ⟨n, e', .inl rfl⟩
  · exact .inr ⟨a, e', step⟩

end Lifts

theorem Moves.staged (m : Moves s t) (st : Staged s) : Staged t := by
  intro x n e
  rcases m x n e with ⟨-, rfl⟩ | ⟨k, e', rfl | ⟨-, rfl⟩ | ⟨-, rfl⟩⟩
  · exact .inl rfl
  · exact st x _ e'
  · exact .inr (.inl rfl)
  · exact .inr (.inr rfl)

/-- A step never lowers the stage of a server it keeps. -/
theorem Moves.le {x : Ptr} {m n : Nat} (mv : Moves s t) (hs : s.stageOf x = some m) (ht : t.stageOf x = some n) :
    m ≤ n := by
  rcases mv x n ht with ⟨none, -⟩ | ⟨m', e, adv⟩
  · simp [hs] at none
  · obtain rfl := Option.some.inj (hs.symm.trans e)
    exact adv.le

section Callbacks

variable (cipher : Cipher σ) (cfg : Config) {io : Io}

theorem sendUp_keeps {q : Ptr} {r : Int} (h : sendUp p q io r s = .ok t) : Keeps s t := by
  unfold sendUp at h
  obtain ⟨rm, -, h⟩ := bind_eq_ok.1 h
  dsimp only at h
  split at h
  · split at h
    · obtain rfl := pure_eq_ok.1 h
      exact .of_eq rfl
    obtain ⟨c, -, h⟩ := bind_eq_ok.1 h
    obtain ⟨sr, sent, h⟩ := bind_eq_ok.1 h
    split at h
    · obtain rfl := pure_eq_ok.1 h
      exact (Keeps.send sent).via rfl rfl
    · exact Keeps.trans ((Keeps.send sent).via rfl rfl) ((Keeps.of_eq (by split <;> rfl)).trans (.teardown h))
    · obtain rfl := pure_eq_ok.1 h
      exact (Keeps.send sent).via rfl rfl
  · obtain ⟨c, -, h⟩ := bind_eq_ok.1 h
    obtain ⟨sr, sent, h⟩ := bind_eq_ok.1 h
    split at h
    · obtain rfl := pure_eq_ok.1 h
      exact (Keeps.send sent).via rfl rfl
    · exact Keeps.trans ((Keeps.send sent).via rfl rfl) (.teardown h)
    · split at h <;> obtain rfl := pure_eq_ok.1 h <;> exact (Keeps.send sent).via rfl rfl

theorem relayUp_keeps {remote : Option Ptr} {r : Int} (h : relayUp cipher p io remote r s = .ok t) :
    Keeps s t := by
  unfold relayUp at h
  split at h
  · exact .closeAndFreeServer h
  obtain ⟨sv, hsv, h⟩ := bind_eq_ok.1 h
  obtain ⟨rm, -, h⟩ := bind_eq_ok.1 h
  split at h
  · obtain ⟨c, -, h⟩ := bind_eq_ok.1 h
    dsimp only at h
    split at h
    · obtain ⟨s₁, h₁, h⟩ := bind_eq_ok.1 h
      exact (Keeps.free h₁).trans ((Keeps.teardown h).via rfl rfl)
    · exact Keeps.trans (Keeps.setServer (.refl s) (State.server?_eq_ok.1 hsv) (by rfl)) ((sendUp_keeps h).via rfl rfl)
  · exact (sendUp_keeps h).via rfl rfl

/-- The stage-0 branch moves its server to stage 1 and nothing else. -/
theorem greet_lifts (hp : s.servers p = some sv) (h : greet p io s = .ok t) : Lifts p sv.stage 1 s t := by
  rw [greet, State.server?_of hp, ok_bind] at h
  obtain rfl := pure_eq_ok.1 h
  exact Lifts.setServer (.of_eq (by cases io.reply <;> rfl)) hp rfl

/-- The CONNECT branch moves its server to stage 5 and nothing else. -/
theorem connectRequest_lifts {l : Locals} {c : Buf} {res : Option Locals} (hp : s.servers p = some sv)
    (h : connectRequest cfg p io l c s = .ok (res, t)) : Lifts p sv.stage 5 s t := by
  unfold connectRequest at h
  obtain ⟨atyp, -, h⟩ := bind_eq_ok.1 h
  obtain ⟨parsed, -, h⟩ := bind_eq_ok.1 h
  rcases parsed with _ | ⟨header, host, service⟩
  · obtain ⟨u, hu, h⟩ := bind_eq_ok.1 h
    obtain ⟨-, rfl⟩ := Prod.mk.inj (pure_eq_ok.1 h)
    exact Keeps.lifts ((Keeps.teardown hu).via rfl rfl)
  obtain ⟨sv', hsv', h⟩ := bind_eq_ok.1 h
  obtain rfl : sv' = sv := by simpa [hp] using (State.server?_eq_ok.1 hsv').symm
  obtain ⟨⟨remote, s₁⟩, conn, h⟩ := bind_eq_ok.1 h
  have lift : Lifts p sv'.stage 5 s s₁ :=
    (Lifts.setServer (.refl s) hp (by rfl)).trans_keeps ((Keeps.of_eq (connectToRemote_servers cfg conn)).via rfl rfl)
  obtain ⟨_, -, h⟩ := bind_eq_ok.1 h
  rcases remote with _ | q
  · obtain ⟨u, hu, h⟩ := bind_eq_ok.1 h
    obtain ⟨-, rfl⟩ := Prod.mk.inj (pure_eq_ok.1 h)
    exact lift.trans_keeps (.closeAndFreeServer hu)
  obtain ⟨rm, -, h⟩ := bind_eq_ok.1 h
  obtain ⟨rb, -, h⟩ := bind_eq_ok.1 h
  obtain ⟨⟨rb', r⟩, -, h⟩ := bind_eq_ok.1 h
  obtain ⟨sv'', hsv'', h⟩ := bind_eq_ok.1 h
  obtain ⟨-, rfl⟩ := Prod.mk.inj (pure_eq_ok.1 h)
  exact lift.trans_keeps (Keeps.setServer (.refl s₁) (State.server?_eq_ok.1 hsv'') (by rfl))

theorem connectRequest_stage {l l' : Locals} {c : Buf} (h : connectRequest cfg p io l c s = .ok (some l', t)) :
    t.stageOf p = some 5 := by
  obtain ⟨_, _, _, _, _, _, _, _, _, -, -, -, hp, -⟩ := connectRequest_some cfg h
  exact State.stageOf_of hp

/-- The reply keeps every stage; it goes round only after a CONNECT, with the stage it found. -/
theorem reply_lifts {s₀ : State σ} {udp : Bool} {addr : List Byte} {l : Locals} {pass : Pass σ}
    (lift : Lifts p a 5 s₀ s) (at5 : udp = false → s.stageOf p = some 5)
    (h : reply p io udp addr l s = .ok pass) : PassLifts p a s₀ pass := by
  unfold reply at h
  obtain ⟨sv, hsv, h⟩ := bind_eq_ok.1 h
  have hp := State.server?_eq_ok.1 hsv
  obtain ⟨sb, -, h⟩ := bind_eq_ok.1 h
  obtain ⟨sb', -, h⟩ := bind_eq_ok.1 h
  obtain ⟨⟨res, s₁⟩, sent, h⟩ := bind_eq_ok.1 h
  have k : Keeps s s₁ := Keeps.trans (Keeps.setServer (.refl s) hp (by rfl)) ((Keeps.send sent).via rfl rfl)
  have same : s₁.stageOf p = s.stageOf p := by simp [State.stageOf, State.send_servers sent, hp]
  dsimp only at h
  split at h
  · obtain ⟨s₂, down, h⟩ := bind_eq_ok.1 h
    obtain rfl := pure_eq_ok.1 h
    exact lift.trans_keeps (k.trans (.teardown down))
  simp only [pure_bind] at h
  split at h
  · obtain ⟨s₂, down, h⟩ := bind_eq_ok.1 h
    obtain rfl := pure_eq_ok.1 h
    exact lift.trans_keeps (k.trans (.teardown down))
  · obtain rfl := pure_eq_ok.1 h
    exact ⟨lift.trans_keeps k, same.trans (at5 (by simpa using ‹¬udp = true›))⟩

theorem request_lifts {l : Locals} {pass : Pass σ} (hp : s.servers p = some sv)
    (h : request cfg p io l s = .ok pass) : PassLifts p sv.stage s pass := by
  simp only [request, State.server?_of hp, ok_bind] at h
  obtain ⟨c, -, h⟩ := bind_eq_ok.1 h
  obtain ⟨cmd, -, h⟩ := bind_eq_ok.1 h
  split at h
  · exact reply_lifts (Keeps.refl s).lifts (by simp) h
  split at h
  · obtain ⟨s₂, down, h⟩ := bind_eq_ok.1 h
    obtain rfl := pure_eq_ok.1 h
    exact (Keeps.trans (.of_eq (by simp)) (.teardown down)).lifts
  · obtain ⟨⟨res, s₂⟩, conn, h⟩ := bind_eq_ok.1 h
    have lift := connectRequest_lifts cfg hp conn
    cases res with
    | none =>
      obtain rfl := pure_eq_ok.1 h
      exact lift
    | some l' => exact reply_lifts lift (fun _ => connectRequest_stage cfg conn) h

/-- One run of the loop moves its server from 0 to 1 or from 1 to 5, and nothing else. -/
theorem serverRecvLoop_lifts {fuel : Nat} {l : Locals} (h : serverRecvLoop cipher cfg p io fuel l s = .ok t) :
    Lifts p 0 1 s t ∨ Lifts p 1 5 s t := by
  induction fuel generalizing l s with
  | zero => cases h
  | succ fuel ih =>
    obtain ⟨sv, hp, h⟩ := bind_eq_ok.1 h
    replace hp := State.server?_eq_ok.1 hp
    split at h
    · exact .inl (relayUp_keeps cipher h).lifts
    split at h
    · exact .inl (‹sv.stage = 0› ▸ greet_lifts hp h)
    split at h
    · obtain ⟨pass, hr, h⟩ := bind_eq_ok.1 h
      have lift := request_lifts cfg hp hr
      rw [‹sv.stage = 1›] at lift
      cases pass with
      | done u =>
        obtain rfl := pure_eq_ok.1 h
        exact .inr lift
      | again l' u =>
        have rest : Keeps u t := (ih h).elim (·.keeps lift.2 (by decide)) (·.keeps lift.2 (by decide))
        exact .inr (lift.1.trans_keeps rest)
    · exact ih h

theorem setBuffer_keeps {owner : Option Ptr} {c : Buf} (h : setBuffer s p owner c = .ok t) : Keeps s t := by
  cases owner with
  | none =>
    obtain ⟨sv, hsv, h⟩ := bind_eq_ok.1 h
    obtain rfl := pure_eq_ok.1 h
    exact (Keeps.refl s).setServer (State.server?_eq_ok.1 hsv) rfl
  | some q =>
    obtain ⟨rm, -, h⟩ := bind_eq_ok.1 h
    obtain rfl := pure_eq_ok.1 h
    exact .of_eq rfl

theorem serverRecvCb_lifts (h : serverRecvCb cipher cfg p io s = .ok t) : Lifts p 0 1 s t ∨ Lifts p 1 5 s t := by
  unfold serverRecvCb at h
  obtain ⟨sv, -, h⟩ := bind_eq_ok.1 h
  split at h
  · obtain rfl := pure_eq_ok.1 h
    exact .inl (Keeps.refl s).lifts
  · exact .inl (Keeps.teardown h).lifts
  dsimp only at h
  split at h
  · exact .inl (Keeps.teardown h).lifts
  obtain ⟨c, -, h⟩ := bind_eq_ok.1 h
  obtain ⟨c', -, h⟩ := bind_eq_ok.1 h
  obtain ⟨u, hu, h⟩ := bind_eq_ok.1 h
  have k : Keeps s u := setBuffer_keeps hu
  exact (serverRecvLoop_lifts cipher cfg h).imp (Lifts.keeps_trans k ·) (Lifts.keeps_trans k ·)

theorem serverSendCb_keeps (h : serverSendCb p io s = .ok t) : Keeps s t := by
  unfold serverSendCb at h
  obtain ⟨sv, hsv, h⟩ := bind_eq_ok.1 h
  have hp := State.server?_eq_ok.1 hsv
  split at h
  · exact .teardown h
  obtain ⟨c, -, h⟩ := bind_eq_ok.1 h
  obtain ⟨sr, sent, h⟩ := bind_eq_ok.1 h
  split at h
  · split at h
    · exact (Keeps.send sent).trans (.teardown h)
    · obtain rfl := pure_eq_ok.1 h
      exact .send sent
  · split at h
    · obtain rfl := pure_eq_ok.1 h
      exact (Keeps.send sent).setServer hp rfl
    · obtain ⟨q, -, h⟩ := bind_eq_ok.1 h
      obtain ⟨_, -, h⟩ := bind_eq_ok.1 h
      obtain rfl := pure_eq_ok.1 h
      exact (Keeps.send sent).setServer hp rfl

theorem deliver_keeps {q : Ptr} {r : Int} (h : deliver p q io r s = .ok t) : Keeps s t := by
  unfold deliver at h
  obtain ⟨sv, hsv, h⟩ := bind_eq_ok.1 h
  have hp := State.server?_eq_ok.1 hsv
  obtain ⟨c, -, h⟩ := bind_eq_ok.1 h
  obtain ⟨sr, sent, h⟩ := bind_eq_ok.1 h
  split at h
  · obtain rfl := pure_eq_ok.1 h
    exact (Keeps.send sent).setServer hp rfl
  · exact (Keeps.send sent).trans (.teardown h)
  · split at h <;> obtain rfl := pure_eq_ok.1 h
    · exact (Keeps.send sent).setServer hp rfl
    · exact .send sent

theorem remoteRecvCb_keeps {q : Ptr} (h : remoteRecvCb cipher cfg q io s = .ok t) : Keeps s t := by
  unfold remoteRecvCb at h
  obtain ⟨rm, -, h⟩ := bind_eq_ok.1 h
  obtain ⟨x, -, h⟩ := bind_eq_ok.1 h
  obtain ⟨sv, hsv, h⟩ := bind_eq_ok.1 h
  have hp : s.servers x = some sv := by simpa using State.server?_eq_ok.1 hsv
  have k : Keeps s (s.timerAgain (.idleTimer q) (idleRepeat cfg)) := .of_eq (by simp)
  split at h
  · obtain rfl := pure_eq_ok.1 h
    exact k
  · exact k.trans (.teardown h)
  dsimp only at h
  split at h
  · exact k.trans (.teardown h)
  obtain ⟨c, -, h⟩ := bind_eq_ok.1 h
  obtain ⟨c', -, h⟩ := bind_eq_ok.1 h
  have k₁ : Keeps s ((s.timerAgain (.idleTimer q) (idleRepeat cfg)).setServer x { sv with buf := some c' }) :=
    k.setServer hp rfl
  split at h
  · split at h
    · obtain ⟨s₂, h₂, h⟩ := bind_eq_ok.1 h
      exact ((k₁.trans ((Keeps.free h₂).via rfl rfl)).setServer hp (by rfl)).trans (.teardown h)
    · exact (k₁.setServer hp (by rfl)).trans ((deliver_keeps h).via rfl rfl)
  · exact k₁.trans ((deliver_keeps h).via rfl rfl)

theorem flushUp_keeps {q : Ptr} {server : Option Ptr} (h : flushUp q server io s = .ok t) : Keeps s t := by
  unfold flushUp at h
  obtain ⟨rm, -, h⟩ := bind_eq_ok.1 h
  split at h
  · exact .teardown h
  obtain ⟨c, -, h⟩ := bind_eq_ok.1 h
  obtain ⟨sr, sent, h⟩ := bind_eq_ok.1 h
  split at h
  · split at h
    · exact (Keeps.send sent).trans (.teardown h)
    · obtain rfl := pure_eq_ok.1 h
      exact .send sent
  · split at h
    · obtain rfl := pure_eq_ok.1 h
      exact (Keeps.send sent).via rfl rfl
    · obtain ⟨x, -, h⟩ := bind_eq_ok.1 h
      obtain ⟨_, -, h⟩ := bind_eq_ok.1 h
      obtain rfl := pure_eq_ok.1 h
      exact (Keeps.send sent).via rfl rfl

theorem remoteSendCb_keeps {q : Ptr} (h : remoteSendCb q io s = .ok t) : Keeps s t := by
  unfold remoteSendCb at h
  obtain ⟨rm, -, h⟩ := bind_eq_ok.1 h
  dsimp only at h
  split at h
  · split at h
    · split at h
      · obtain ⟨x, -, h⟩ := bind_eq_ok.1 h
        obtain ⟨_, -, h⟩ := bind_eq_ok.1 h
        obtain rfl := pure_eq_ok.1 h
        exact .of_eq rfl
      · exact (flushUp_keeps h).via rfl rfl
    · exact .teardown h
  · exact flushUp_keeps h

theorem remoteTimeoutCb_keeps {q : Ptr} (h : remoteTimeoutCb q s = .ok t) : Keeps s t := by
  obtain ⟨rm, -, h⟩ := bind_eq_ok.1 h
  exact .teardown h

/-- Every callback but `server_recv_cb` keeps every stage. -/
theorem dispatch_moves {w : Watcher} (h : dispatch cipher cfg w io s = .ok t) : Moves s t := by
  cases w with
  | serverRecv p =>
    exact (serverRecvCb_lifts cipher cfg h).elim (·.moves (.inr (.inl ⟨rfl, rfl⟩)))
      (·.moves (.inr (.inr ⟨rfl, rfl⟩)))
  | serverSend p => exact (serverSendCb_keeps h).moves
  | remoteRecv q => exact (remoteRecvCb_keeps cipher cfg h).moves
  | remoteSend q => exact (remoteSendCb_keeps h).moves
  | connectTimer q => exact Keeps.moves ((remoteTimeoutCb_keeps h).via rfl rfl)
  | idleTimer q => exact (Keeps.trans (.of_eq (by simp)) (remoteTimeoutCb_keeps h)).moves

end Callbacks

section Reactor

variable (cipher : Cipher σ) (cfg : Config) {io : Io}

theorem acceptCb_stageOf {x : Ptr} :
    (acceptCb cipher cfg s io).stageOf x = if io.accept ∧ x = s.next + 1 then some 0 else s.stageOf x := by
  unfold acceptCb
  split
  · by_cases m : cfg.method = 0 <;> by_cases hx : x = s.next + 1 <;> simp [newServer, m, hx, State.stageOf, *]
  · simp [*]

/-- `accept_cb` adds one server, at stage 0, at an address that was free. -/
theorem acceptCb_moves (fresh : s.servers (s.next + 1) = none) : Moves s (acceptCb cipher cfg s io) := by
  intro x n e
  rw [acceptCb_stageOf] at e
  split_ifs at e with hx
  · cases e
    exact .inl ⟨by simp [State.stageOf, hx.2, fresh], rfl⟩
  · exact .inr ⟨n, e, .inl rfl⟩

theorem step_moves (inv : Inv s) (step : Step cipher cfg s t) : Moves s t := by
  obtain ⟨tk, io, h⟩ := step
  cases tk with
  | accept =>
    cases h
    exact acceptCb_moves cipher cfg (inv.dead (Nat.le_succ _)).1
  | fire w =>
    simp only [tick] at h
    split at h
    · exact dispatch_moves cipher cfg h
    · cases h
      exact (Keeps.refl s).moves

theorem reachable_staged (reach : Reachable cipher cfg s) : Staged s := by
  induction reach with
  | init => intro x n e; simp [State.stageOf, initial] at e
  | step reach step ih => exact (step_moves cipher cfg (reachable_good cipher cfg reach).inv step).staged ih

/-- The loop as the stage machine runs it: one pass, and a second only after a stage-1 pass
that goes round, which finds stage 5 and returns from the stage-5 branch. -/
def twoPasses (p : Ptr) (io : Io) (l : Locals) (s : State σ) : Except Fault (State σ) := do
  let sv ← s.server? p
  if sv.stage = 5 then relayUp cipher p io l.remote l.r s
  else if sv.stage = 0 then greet p io s
  else
    match ← request cfg p io l s with
    | .done s => pure s
    | .again l s => relayUp cipher p io l.remote l.r s

/-- From a stage in {0, 1, 5}, the loop with two passes or more is `twoPasses`: it returns
within two passes and never reaches the end of its fuel. -/
theorem serverRecvLoop_two {l : Locals} (k : Nat) (staged : Staged s) :
    serverRecvLoop cipher cfg p io (k + 2) l s = twoPasses cipher cfg p io l s := by
  cases hp : s.servers p with
  | none => simp [serverRecvLoop, twoPasses, State.server?, hp]
  | some sv =>
    rw [serverRecvLoop, twoPasses, State.server?_of hp, ok_bind, ok_bind]
    split_ifs with h5 h0 h1
    · rfl
    · rfl
    · cases hr : request cfg p io l s with
      | error => rfl
      | ok pass =>
        cases pass with
        | done u => rfl
        | again l' u =>
          obtain ⟨sv₅, hp₅, stage5⟩ := Option.map_eq_some'.1 (request_lifts cfg hp hr).2
          exact serverRecvLoop_stage5 cipher cfg hp₅ stage5
    · have := staged p sv.stage (State.stageOf_of hp)
      omega

/-- The stage machine: in a reachable state every server is at stage 0, 1 or 5; a step adds
servers at stage 0 and moves a server only from 0 to 1 or from 1 to 5, so never lowers a stage,
and `server_recv_cb` moves only its own; and the loop, entered at a state whose servers keep their
stages (as `server_recv_cb` enters it after storing the received bytes), is the two-pass
program. -/
theorem stage_machine_two_passes (reach : Reachable cipher cfg s) :
    Staged s ∧ (∀ t, Step cipher cfg s t → Moves s t ∧ ∀ x m n, s.stageOf x = some m → t.stageOf x = some n → m ≤ n) ∧
      (∀ p io t, serverRecvCb cipher cfg p io s = .ok t → Lifts p 0 1 s t ∨ Lifts p 1 5 s t) ∧
      ∀ u, Keeps s u → ∀ p io l k, serverRecvLoop cipher cfg p io (k + 2) l u = twoPasses cipher cfg p io l u := by
  have staged := reachable_staged cipher cfg reach
  have moves {t : State σ} (step : Step cipher cfg s t) : Moves s t :=
    step_moves cipher cfg (reachable_good cipher cfg reach).inv step
  exact ⟨staged, fun _ step => ⟨moves step, fun _ _ _ => (moves step).le⟩,
    fun _ _ _ => serverRecvCb_lifts cipher cfg, fun _ k _ _ _ n => serverRecvLoop_two cipher cfg n (k.staged staged)⟩

theorem stage_machine_after_accept :
    let s₁ := acceptCb Cipher.identity plainCfg (initial false : State Unit) {}
    Reachable Cipher.identity plainCfg s₁ ∧ s₁.stageOf 1 = some 0 ∧
      (Staged s₁ ∧ (∀ t, Step Cipher.identity plainCfg s₁ t →
          Moves s₁ t ∧ ∀ x m n, s₁.stageOf x = some m → t.stageOf x = some n → m ≤ n) ∧
        (∀ p io t, serverRecvCb Cipher.identity plainCfg p io s₁ = .ok t → Lifts p 0 1 s₁ t ∨ Lifts p 1 5 s₁ t) ∧
        ∀ u, Keeps s₁ u → ∀ p io l k,
          serverRecvLoop Cipher.identity plainCfg p io (k + 2) l u = twoPasses Cipher.identity plainCfg p io l u) :=
  have reach : Reachable Cipher.identity plainCfg (acceptCb Cipher.identity plainCfg (initial false : State Unit) {}) :=
    .step .init (.tick .accept {} rfl)
  ⟨reach, rfl, stage_machine_two_passes Cipher.identity plainCfg reach⟩

end Reactor

end Shadowsocks.Local
