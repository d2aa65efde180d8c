import ShadowsocksLocal.Callbacks

/-! The start of `main`: the `getopt_long` loop, the configuration file, the required options
and defaults, and the listener context the callbacks read; and `start_ss_local_server`, which
takes its values from a profile. `MAX_REMOTE_NUM` and `jconf.c` are not in the sources: the size
of the stack array is a parameter, and `read_jconf`, `init_acl` and `enc_init` are oracles. -/
namespace Shadowsocks.Local

/-- `ss_addr_t`: a host and a port, `NULL` until set. -/
structure SsAddr where
  host : Option (List Byte)
  port : Option (List Byte)
  deriving DecidableEq, Repr

/-- A result of `getopt_long` in the loop of `main`, with its argument. `ignored` stands for
`-f`, `-i`, `-b`, `-a` and `-v`, whose values no modelled step reads, and for an unknown option,
which `opterr = 0` lets through. -/
inductive Opt where
  | fastOpen
  | acl (path : List Byte)
  | server (host : List Byte)
  | remotePort (port : List Byte)
  | localPort (port : List Byte)
  | key (password : List Byte)
  | timeout (t : List Byte)
  | method (m : List Byte)
  | conf (path : List Byte)
  | udp
  | ignored
  deriving DecidableEq, Repr

def Opt.isServer : Opt → Bool
  | .server _ => true
  | _ => false

/-- The argument of the last `-t`. -/
def timeoutArg : List Opt → Option (List Byte)
  | [] => none
  | .timeout t :: os => timeoutArg os <|> some t
  | _ :: os => timeoutArg os

/-- The argument of the last `-c`. -/
def confArg : List Opt → Option (List Byte)
  | [] => none
  | .conf path :: os => confArg os <|> some path
  | _ :: os => confArg os

/-- What `read_jconf` returns, as far as `main` reads it. -/
structure JConf where
  remoteNum : Nat
  remoteAddr : Nat → SsAddr
  remotePort : Option (List Byte)
  localPort : Option (List Byte)
  password : Option (List Byte)
  method : Option (List Byte)
  timeout : Option (List Byte)
  fastOpen : Bool

/-- The calls of `main` whose code is not in the sources. -/
structure Env where
  /-- `init_acl(path)`: `0` when the list loads. -/
  initAcl : List Byte → Int
  readJconf : List Byte → JConf
  /-- `enc_init(password, method)`: the method number. -/
  encInit : Option (List Byte) → Option (List Byte) → Nat

/-- The locals of `main` the option loop sets, with the flags `fast_open`, `acl`, `udprelay`. -/
structure Args where
  remoteNum : Nat
  remoteAddr : Nat → SsAddr
  remotePort : Option (List Byte)
  localPort : Option (List Byte)
  password : Option (List Byte)
  timeout : Option (List Byte)
  method : Option (List Byte)
  confPath : Option (List Byte)
  fastOpen : Bool
  acl : Bool
  udprelay : Bool

def Args.init : Args := ⟨0, fun _ => ⟨none, none⟩, none, none, none, none, none, none, false, false, false⟩

/-- `listen_ctx` as the callbacks read it: the upstream list, the timeout and the method. -/
structure ListenCtx where
  remoteNum : Nat
  remoteAddr : List SsAddr
  timeout : Int
  method : Nat

/-- `isspace` in the C locale. -/
def isSpace (c : Byte) : Bool := c == 32 || (9 ≤ c && c ≤ 13)

def digitsValue : List Byte → Nat → Nat
  | c :: cs, acc => if 48 ≤ c ∧ c ≤ 57 then digitsValue cs (acc * 10 + (c.toNat - 48)) else acc
  | [], acc => acc

/-- The value `strtol(s, NULL, 10)` reads before it saturates: blanks, a sign, the digits. -/
def decimalValue (s : List Byte) : Int :=
  match s.dropWhile isSpace with
  | 45 :: t => -(digitsValue t 0 : Int)
  | 43 :: t => digitsValue t 0
  | t => digitsValue t 0

/-- `atoi(s)` as glibc computes it, `(int) strtol(s, NULL, 10)`: `strtol` saturates at the range
of `long`, and the cast keeps the low 32 bits. -/
def atoi (s : List Byte) : Int :=
  Int.bmod (max (-9223372036854775808) (min (decimalValue s) 9223372036854775807)) 4294967296

theorem bmod_int_range (x : Int) : -2147483648 ≤ Int.bmod x 4294967296 ∧ Int.bmod x 4294967296 < 2147483648 := by
  have lo := @Int.le_bmod x 4294967296 (by decide)
  have hi := @Int.bmod_lt x 4294967296 (by decide)
  omega

theorem bmod_int_eq_iff {x : Int} : Int.bmod x 4294967296 = x ↔ -2147483648 ≤ x ∧ x < 2147483648 := by
  refine ⟨fun h => h ▸ bmod_int_range x, fun ⟨lo, hi⟩ => ?_⟩
  by_cases low : x % (4294967296 : Nat) < ((4294967296 : Nat) + 1) / 2
  · rw [Int.bmod_pos _ _ low]; omega
  · rw [Int.bmod_neg _ _ (by omega)]; omega

theorem atoi_range (s : List Byte) : -2147483648 ≤ atoi s ∧ atoi s < 2147483648 :=
  bmod_int_range _

section Main

variable (maxRemoteNum : Nat) (env : Env)

/-- `remote_addr[i] = a` in the stack array of `MAX_REMOTE_NUM` entries. -/
def storeAddr (addrs : Nat → SsAddr) (i : Nat) (a : SsAddr) : Except Fault (Nat → SsAddr) :=
  if i < maxRemoteNum then .ok (Function.update addrs i a) else .error .outOfBounds

/-- `remote_addr[i]`. -/
def loadAddr (addrs : Nat → SsAddr) (i : Nat) : Except Fault SsAddr :=
  if i < maxRemoteNum then .ok (addrs i) else .error .outOfBounds

/-- One case of the `switch` of the option loop. -/
def parseOpt (a : Args) : Opt → Except Fault Args
  | .fastOpen => pure { a with fastOpen := true }
  | .acl path => pure { a with acl := env.initAcl path == 0 }
  | .server host => do
    let addrs ← storeAddr maxRemoteNum a.remoteAddr a.remoteNum ⟨some host, none⟩
    pure { a with remoteAddr := addrs, remoteNum := a.remoteNum + 1 }
  | .remotePort port => pure { a with remotePort := some port }
  | .localPort port => pure { a with localPort := some port }
  | .key password => pure { a with password := some password }
  | .timeout t => pure { a with timeout := some t }
  | .method m => pure { a with method := some m }
  | .conf path => pure { a with confPath := some path }
  | .udp => pure { a with udprelay := true }
  | .ignored => pure a

/-- The `while ((c = getopt_long(...)) != -1)` loop. -/
def parseOpts : List Opt → Args → Except Fault Args
  | [], a => .ok a
  | o :: os, a => do parseOpts os (← parseOpt maxRemoteNum env a o)

/-- `for (i = 0; i < remote_num; i++) remote_addr[i] = conf->remote_addr[i];` -/
def copyConfAddrs (src : Nat → SsAddr) : Nat → (Nat → SsAddr) → Except Fault (Nat → SsAddr)
  | 0, dst => .ok dst
  | n + 1, dst => do storeAddr maxRemoteNum (← copyConfAddrs src n dst) n (src n)

/-- `if (remote_num == 0)`: the upstreams of the file, when no `-s` gave any. -/
def confRemotes (conf : JConf) (a : Args) : Except Fault Args :=
  if a.remoteNum = 0 then do
    let addrs ← copyConfAddrs maxRemoteNum conf.remoteAddr conf.remoteNum a.remoteAddr
    pure { a with remoteNum := conf.remoteNum, remoteAddr := addrs }
  else pure a

/-- The `conf_path != NULL` block: what the options left unset comes from the file. -/
def mergeConf (a : Args) : Except Fault Args :=
  match a.confPath with
  | none => pure a
  | some path => do
    let conf := env.readJconf path
    let a ← confRemotes maxRemoteNum conf a
    pure { a with
      remotePort := a.remotePort <|> conf.remotePort
      localPort := a.localPort <|> conf.localPort
      password := a.password <|> conf.password
      method := a.method <|> conf.method
      timeout := a.timeout <|> conf.timeout
      fastOpen := a.fastOpen || conf.fastOpen }

/-- `while (remote_num > 0) { int index = --remote_num; ... }`: from the top index down, a
missing port becomes `remote_port` and the entry is copied to `listen_ctx.remote_addr`. -/
def copyRemotes (addrs : Nat → SsAddr) (port : Option (List Byte)) :
    Nat → List SsAddr → Except Fault (List SsAddr)
  | 0, out => .ok out
  | index + 1, out => do
    let a ← loadAddr maxRemoteNum addrs index
    copyRemotes addrs port index ({ a with port := a.port <|> port } :: out)

/-- `main` up to `ev_run`: the listener context and the configuration of the callbacks; `none`
is `usage(); exit(EXIT_FAILURE)`. `opterr` is 0 throughout, so its test never exits. -/
def mainListen (opts : List Opt) : Except Fault (Option (ListenCtx × Config)) := do
  let a ← parseOpts maxRemoteNum env opts Args.init
  let a ← mergeConf maxRemoteNum env a
  if a.remoteNum = 0 ∨ a.remotePort = none ∨ a.localPort = none ∨ a.password = none then return none
  let m := env.encInit a.password a.method
  let remotes ← copyRemotes maxRemoteNum a.remoteAddr a.remotePort a.remoteNum []
  let ctx : ListenCtx := ⟨a.remoteNum, remotes, atoi (a.timeout.getD [49, 48]), m⟩
  return some (ctx, ⟨m, ctx.timeout, ctx.remoteNum, a.acl, a.udprelay, a.fastOpen⟩)

theorem storeAddr_of_lt {addrs : Nat → SsAddr} {i : Nat} {a : SsAddr} (room : i < maxRemoteNum) :
    storeAddr maxRemoteNum addrs i a = .ok (Function.update addrs i a) := by
  simp [storeAddr, room]

theorem storeAddr_of_le {addrs : Nat → SsAddr} {i : Nat} {a : SsAddr} (full : maxRemoteNum ≤ i) :
    storeAddr maxRemoteNum addrs i a = .error .outOfBounds := by
  simp [storeAddr, Nat.not_lt.2 full]

theorem storeAddr_lt {addrs addrs' : Nat → SsAddr} {i : Nat} {a : SsAddr}
    (h : storeAddr maxRemoteNum addrs i a = .ok addrs') : i < maxRemoteNum := by
  unfold storeAddr at h
  split at h
  · assumption
  · cases h

theorem parseOpt_remoteNum {a a' : Args} {o : Opt} (h : parseOpt maxRemoteNum env a o = .ok a') :
    a'.remoteNum = a.remoteNum + (if o.isServer then 1 else 0) ∧ (o.isServer → a.remoteNum < maxRemoteNum) := by
  cases o with
  | server host =>
    obtain ⟨addrs, stored, h⟩ := bind_eq_ok.1 h
    cases h
    exact ⟨rfl, fun _ => storeAddr_lt maxRemoteNum stored⟩
  | _ => cases h; exact ⟨rfl, nofun⟩

/-- More `-s` options than the array has entries: the loop writes `remote_addr[MAX_REMOTE_NUM]`. -/
theorem parseOpts_overflow {a : Args} {opts : List Opt} (within : a.remoteNum ≤ maxRemoteNum)
    (more : maxRemoteNum < a.remoteNum + (opts.filter Opt.isServer).length) :
    parseOpts maxRemoteNum env opts a = .error .outOfBounds := by
  induction opts generalizing a with
  | nil => simp at more; omega
  | cons o os ih =>
    cases o with
    | server host =>
      by_cases room : a.remoteNum < maxRemoteNum
      · rw [parseOpts, parseOpt, storeAddr_of_lt maxRemoteNum room, ok_bind]
        exact ih room (by simp [Opt.isServer] at more ⊢; omega)
      · simp [parseOpts, parseOpt, storeAddr_of_le maxRemoteNum (Nat.le_of_not_lt room)]
    | _ => exact ih within (by simpa [Opt.isServer] using more)

theorem parseOpts_within {a a' : Args} {opts : List Opt} (within : a.remoteNum ≤ maxRemoteNum)
    (h : parseOpts maxRemoteNum env opts a = .ok a') : a'.remoteNum ≤ maxRemoteNum := by
  induction opts generalizing a with
  | nil => cases h; exact within
  | cons o os ih =>
    obtain ⟨a₁, step, h⟩ := bind_eq_ok.1 h
    obtain ⟨moved, room⟩ := parseOpt_remoteNum maxRemoteNum env step
    refine ih ?_ h
    cases hs : o.isServer <;> simp [hs] at moved
    · omega
    · have := room hs; omega

theorem copyConfAddrs_within {src dst d : Nat → SsAddr} {n : Nat}
    (h : copyConfAddrs maxRemoteNum src n dst = .ok d) : n ≤ maxRemoteNum := by
  cases n with
  | zero => exact Nat.zero_le _
  | succ n =>
    obtain ⟨_, -, h⟩ := bind_eq_ok.1 h
    exact storeAddr_lt maxRemoteNum h

theorem confRemotes_within {conf : JConf} {a a' : Args} (within : a.remoteNum ≤ maxRemoteNum)
    (h : confRemotes maxRemoteNum conf a = .ok a') : a'.remoteNum ≤ maxRemoteNum := by
  unfold confRemotes at h
  split at h
  · obtain ⟨addrs, copied, h⟩ := bind_eq_ok.1 h
    cases h
    exact copyConfAddrs_within maxRemoteNum copied
  · cases h; exact within

theorem mergeConf_within {a a' : Args} (within : a.remoteNum ≤ maxRemoteNum)
    (h : mergeConf maxRemoteNum env a = .ok a') : a'.remoteNum ≤ maxRemoteNum := by
  unfold mergeConf at h
  split at h
  · cases h; exact within
  · obtain ⟨a₁, h₁, h⟩ := bind_eq_ok.1 h
    cases h
    exact (confRemotes_within maxRemoteNum within h₁ :)

theorem copyRemotes_eq {addrs : Nat → SsAddr} {port : Option (List Byte)} {n : Nat} (within : n ≤ maxRemoteNum)
    (out : List SsAddr) :
    copyRemotes maxRemoteNum addrs port n out =
      .ok ((List.range n).map (fun i => { addrs i with port := (addrs i).port <|> port }) ++ out) := by
  induction n generalizing out with
  | zero => rfl
  | succ n ih =>
    rw [copyRemotes, loadAddr, if_pos (by omega), ok_bind, ih (by omega)]
    simp [List.range_succ]

/-- What a `main` that reaches the loop configured: the options and the file merged into `a`,
at least one and at most `MAX_REMOTE_NUM` upstreams, and the timeout `atoi` of the `-t` or
file text, `10` when neither gave one. -/
theorem mainListen_some {opts : List Opt} {ctx : ListenCtx} {cfg : Config}
    (h : mainListen maxRemoteNum env opts = .ok (some (ctx, cfg))) :
    ∃ a₀ a, parseOpts maxRemoteNum env opts Args.init = .ok a₀ ∧
      mergeConf maxRemoteNum env a₀ = .ok a ∧ 0 < a.remoteNum ∧ a.remoteNum ≤ maxRemoteNum ∧
      ctx = ⟨a.remoteNum, (List.range a.remoteNum).map
        (fun i => { a.remoteAddr i with port := (a.remoteAddr i).port <|> a.remotePort }),
        atoi (a.timeout.getD [49, 48]), env.encInit a.password a.method⟩ ∧
      cfg = ⟨ctx.method, ctx.timeout, ctx.remoteNum, a.acl, a.udprelay, a.fastOpen⟩ := by
  unfold mainListen at h
  obtain ⟨a₀, parsed, h⟩ := bind_eq_ok.1 h
  obtain ⟨a, merged, h⟩ := bind_eq_ok.1 h
  have within := mergeConf_within maxRemoteNum env (parseOpts_within maxRemoteNum env (Nat.zero_le _) parsed) merged
  dsimp only at h
  split at h
  · cases h
  next required =>
    rw [pure_bind, copyRemotes_eq maxRemoteNum within, ok_bind] at h
    simp only [pure_eq_ok, Option.some.injEq, Prod.mk.injEq] at h
    obtain ⟨rfl, rfl⟩ := h
    exact ⟨a₀, a, parsed, merged, by omega, within, by simp, rfl⟩

theorem parseOpt_texts {a a' : Args} {o : Opt} (h : parseOpt maxRemoteNum env a o = .ok a') :
    a'.timeout = (timeoutArg [o] <|> a.timeout) ∧ a'.confPath = (confArg [o] <|> a.confPath) := by
  cases o with
  | server host => obtain ⟨_, -, h⟩ := bind_eq_ok.1 h; cases h; simp [timeoutArg, confArg]
  | _ => cases h; simp [timeoutArg, confArg]

theorem parseOpts_texts {a a' : Args} {opts : List Opt} (h : parseOpts maxRemoteNum env opts a = .ok a') :
    a'.timeout = (timeoutArg opts <|> a.timeout) ∧ a'.confPath = (confArg opts <|> a.confPath) := by
  induction opts generalizing a with
  | nil => cases h; simp [timeoutArg, confArg]
  | cons o os ih =>
    obtain ⟨a₁, step, h⟩ := bind_eq_ok.1 h
    obtain ⟨t₁, c₁⟩ := parseOpt_texts maxRemoteNum env step
    obtain ⟨t, c⟩ := ih h
    rw [t, c, t₁, c₁]
    cases o <;> simp only [timeoutArg, confArg] <;> cases timeoutArg os <;> cases confArg os <;> exact ⟨rfl, rfl⟩

theorem confRemotes_timeout {conf : JConf} {a a' : Args} (h : confRemotes maxRemoteNum conf a = .ok a') :
    a'.timeout = a.timeout := by
  unfold confRemotes at h
  split at h
  · obtain ⟨_, -, h⟩ := bind_eq_ok.1 h
    cases h
    rfl
  · cases h; rfl

theorem mergeConf_timeout {a a' : Args} (h : mergeConf maxRemoteNum env a = .ok a') :
    a'.timeout = (a.timeout <|> a.confPath.bind fun path => (env.readJconf path).timeout) := by
  unfold mergeConf at h
  split at h
  · rename_i none
    cases h
    simp [none]
  · rename_i path some
    obtain ⟨a₁, h₁, h⟩ := bind_eq_ok.1 h
    cases h
    simp [some, confRemotes_timeout maxRemoteNum h₁]

/-- A `main` that reaches the loop indexes only below `remote_num`: the copy loop, and the
`rand() % remote_num` of `connect_to_remote`. -/
theorem mainListen_indices {opts : List Opt} {ctx : ListenCtx} {cfg : Config}
    (h : mainListen maxRemoteNum env opts = .ok (some (ctx, cfg))) :
    0 < cfg.remoteNum ∧ cfg.remoteNum ≤ maxRemoteNum ∧ ctx.remoteAddr.length = cfg.remoteNum ∧
      ∀ io : Io, io.rand % cfg.remoteNum < ctx.remoteAddr.length := by
  obtain ⟨-, a, -, -, pos, within, rfl, rfl⟩ := mainListen_some maxRemoteNum env h
  refine ⟨pos, within, by simp, fun io => ?_⟩
  simpa using Nat.mod_lt io.rand pos

theorem server_options_overflow (opts : List Opt) (more : maxRemoteNum < (opts.filter Opt.isServer).length) :
    (parseOpts maxRemoteNum env opts Args.init = .error .outOfBounds ∧
      mainListen maxRemoteNum env opts = .error .outOfBounds) ∧
    ∀ opts' ctx cfg, mainListen maxRemoteNum env opts' = .ok (some (ctx, cfg)) →
      0 < cfg.remoteNum ∧ cfg.remoteNum ≤ maxRemoteNum ∧ ctx.remoteAddr.length = cfg.remoteNum ∧
        ∀ io : Io, io.rand % cfg.remoteNum < ctx.remoteAddr.length := by
  have loop := @parseOpts_overflow maxRemoteNum env Args.init opts (Nat.zero_le _) (by simpa [Args.init] using more)
  exact ⟨⟨loop, by rw [mainListen, loop]; rfl⟩, fun _ _ _ => mainListen_indices maxRemoteNum env⟩

end Main

theorem server_options_overflow_two :
    let env : Env := ⟨fun _ => 0, fun _ => ⟨0, fun _ => ⟨none, none⟩, none, none, none, none, none, false⟩, fun _ _ => 0⟩
    let opts : List Opt := [.server [97], .server [98], .server [99]]
    2 < (opts.filter Opt.isServer).length ∧
      ((parseOpts 2 env opts Args.init = .error .outOfBounds ∧ mainListen 2 env opts = .error .outOfBounds) ∧
        ∀ opts' ctx cfg, mainListen 2 env opts' = .ok (some (ctx, cfg)) →
          0 < cfg.remoteNum ∧ cfg.remoteNum ≤ 2 ∧ ctx.remoteAddr.length = cfg.remoteNum ∧
            ∀ io : Io, io.rand % cfg.remoteNum < ctx.remoteAddr.length) :=
  ⟨by decide, server_options_overflow 2 _ _ (by decide)⟩

/-- The fields of `profile_t` that reach the listener. -/
structure Profile where
  remoteHost : Option (List Byte)
  remotePort : Nat
  method : Option (List Byte)
  password : Option (List Byte)
  acl : Option (List Byte)
  timeout : Int
  udpRelay : Bool
  fastOpen : Bool

/-- `start_ss_local_server(profile)` up to `ev_run`: one upstream, and the profile's timeout
as it is. -/
def startListen (env : Env) (profile : Profile) : ListenCtx × Config :=
  let m := env.encInit profile.password profile.method
  let acl := match profile.acl with
    | some path => env.initAcl path == 0
    | none => false
  let ctx : ListenCtx := ⟨1, [⟨profile.remoteHost, some (decimal profile.remotePort)⟩], profile.timeout, m⟩
  (ctx, ⟨m, ctx.timeout, ctx.remoteNum, acl, profile.udpRelay, profile.fastOpen⟩)

structure TimerArgs where
  after : Int
  every : Int
  deriving DecidableEq, Repr

/-- The two `ev_timer_init` calls of `new_remote`: the connect timer (`send_ctx->watcher`) and
the idle timer (`recv_ctx->watcher`). `timeout * 60` is an `int` product. -/
def newRemoteTimers (timeout : Int) : TimerArgs × TimerArgs :=
  (⟨timeout, 0⟩, ⟨timeout, Int.bmod (timeout * 60) 4294967296⟩)

theorem idleRepeat_eq (cfg : Config) : idleRepeat cfg = (newRemoteTimers cfg.timeout).2.every := rfl

theorem newRemoteTimers_every {t : Int} :
    (newRemoteTimers t).2.every = t * 60 ↔ -35791394 ≤ t ∧ t ≤ 35791394 := by
  show Int.bmod (t * 60) 4294967296 = t * 60 ↔ _
  rw [bmod_int_eq_iff]
  omega

/-- `main` accepts `-t 0`, and the listener's timers then get periods of 0. -/
theorem zero_timeout_accepted :
    let env : Env := ⟨fun _ => 0, fun _ => ⟨0, fun _ => ⟨none, none⟩, none, none, none, none, none, false⟩, fun _ _ => 0⟩
    ∃ ctx cfg, mainListen 1 env [.server [104], .remotePort [56], .localPort [57], .key [107], .timeout [48]] =
      .ok (some (ctx, cfg)) ∧ cfg.timeout = 0 ∧ newRemoteTimers cfg.timeout = (⟨0, 0⟩, ⟨0, 0⟩) :=
  ⟨_, _, rfl, rfl, rfl⟩

theorem listener_timer_periods :
    (∀ maxRemoteNum env opts ctx cfg, mainListen maxRemoteNum env opts = .ok (some (ctx, cfg)) →
      cfg.timeout = atoi ((timeoutArg opts <|> (confArg opts).bind fun path => (env.readJconf path).timeout).getD
        [49, 48]) ∧
      -2147483648 ≤ cfg.timeout ∧ cfg.timeout < 2147483648 ∧
        (timeoutArg opts = none → confArg opts = none → cfg.timeout = 10)) ∧
    (∀ env profile, (startListen env profile).2.timeout = profile.timeout) ∧
    ∀ t : Int, (newRemoteTimers t).1.after = t ∧ (newRemoteTimers t).2.after = t ∧
      ((newRemoteTimers t).2.every = t * 60 ↔ -35791394 ≤ t ∧ t ≤ 35791394) ∧
      (-35791394 ≤ t ∧ t ≤ 35791394 → (0 < (newRemoteTimers t).2.every ↔ 0 < t)) := by
  refine ⟨fun maxRemoteNum env opts ctx cfg h => ?_, fun _ _ => rfl,
    fun t => ⟨rfl, rfl, newRemoteTimers_every, fun range => ?_⟩⟩
  · obtain ⟨a₀, a, parsed, merged, -, -, rfl, rfl⟩ := mainListen_some maxRemoteNum env h
    obtain ⟨timeout, conf⟩ := parseOpts_texts maxRemoteNum env parsed
    have text : a.timeout = (timeoutArg opts <|> (confArg opts).bind fun path => (env.readJconf path).timeout) := by
      rw [mergeConf_timeout maxRemoteNum env merged, timeout, conf]
      simp [Args.init]
    refine ⟨by rw [← text], (atoi_range _).1, (atoi_range _).2, fun unset noConf => ?_⟩
    -- no `-t` and no file: the default text "10"
    show atoi (a.timeout.getD [49, 48]) = 10
    rw [text, unset, noConf]
    rfl
  · rw [newRemoteTimers_every.2 range]
    omega

end Shadowsocks.Local
