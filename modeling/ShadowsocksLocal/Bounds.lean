import Mathlib.Data.Nat.Digits
import ShadowsocksLocal.Request

/-! Index safety of the stage-1 branch of `server_recv_cb`. A computation is `InBounds` when it
does not stop on an access outside its block or a negative length; each primitive gets its
window condition, and the branch is assembled from them by the bind lemma. The address parse
reads at most `buf[off + 261]`, writes at most 259 header bytes, and leaves `host` and `port`
room for their NUL. -/
namespace Shadowsocks.Local

variable {σ : Type} {α β : Type}

/-- A computation that does not stop on an out-of-bounds access or a negative length. -/
def InBounds : Except Fault α → Prop
  | .ok _ => True
  | .error f => f ≠ .outOfBounds ∧ f ≠ .badLength

namespace InBounds

theorem bind {x : Except Fault α} {f : α → Except Fault β} (hx : InBounds x)
    (hf : ∀ a, x = .ok a → InBounds (f a)) : InBounds (x >>= f) := by
  cases x with
  | error e => exact hx
  | ok a => exact hf a rfl

theorem ok (a : α) : InBounds (Except.ok a : Except Fault α) := trivial

theorem dangling : InBounds (Except.error .dangling : Except Fault α) := ⟨by decide, by decide⟩

theorem nullDeref : InBounds (Except.error .nullDeref : Except Fault α) := ⟨by decide, by decide⟩

theorem deref (o : Option α) : InBounds (Local.deref o) := by
  cases o
  · exact nullDeref
  · exact ok _

theorem server? (s : State σ) (p : Ptr) : InBounds (s.server? p) := by
  unfold State.server?; split
  · exact ok _
  · exact dangling

theorem remote? (s : State σ) (q : Ptr) : InBounds (s.remote? q) := by
  unfold State.remote?; split
  · exact ok _
  · exact dangling

theorem free (s : State σ) (b : Ptr) : InBounds (s.free b) := by
  unfold State.free; split
  · exact ok _
  · exact dangling

theorem freeOpt (s : State σ) (o : Option Ptr) : InBounds (s.freeOpt o) := by
  cases o
  · exact ok _
  · exact free s _

theorem freeRemote (s : State σ) (q : Ptr) : InBounds (s.freeRemote q) := by
  refine bind (remote? s q) fun rm _ => bind ?_ fun s₁ _ => bind (freeOpt s₁ _) fun s₂ _ =>
    bind (freeOpt s₂ _) fun s₃ _ => bind (free s₃ _) fun s₄ _ => bind (free s₄ _) fun s₅ _ =>
    bind (free s₅ _) fun _ _ => ok _
  cases rm.server
  · exact ok _
  · exact bind (server? s _) fun _ _ => ok _

theorem freeServer (s : State σ) (p : Ptr) : InBounds (s.freeServer p) := by
  refine bind (server? s p) fun sv _ => bind ?_ fun s₁ _ => bind (freeOpt s₁ _) fun s₂ _ =>
    bind (freeOpt s₂ _) fun s₃ _ => bind (freeOpt s₃ _) fun s₄ _ => bind (free s₄ _) fun s₅ _ =>
    bind (free s₅ _) fun s₆ _ => bind (free s₆ _) fun _ _ => ok _
  cases sv.remote
  · exact ok _
  · exact bind (remote? _ _) fun _ _ => ok _

theorem closeAndFreeServer (s : State σ) (p : Option Ptr) : InBounds (s.closeAndFreeServer p) := by
  cases p
  · exact ok _
  · exact bind (server? s _) fun _ _ => freeServer _ _

theorem closeAndFreeRemote (s : State σ) (q : Option Ptr) : InBounds (s.closeAndFreeRemote q) := by
  cases q
  · exact ok _
  · exact bind (remote? s _) fun _ _ => freeRemote _ _

theorem teardown (s : State σ) (q p : Option Ptr) : InBounds (s.teardown q p) :=
  bind (closeAndFreeRemote s q) fun s₁ _ => closeAndFreeServer s₁ p

theorem connectToRemote (cfg : Config) (s : State σ) (io : Io) (d : Option (List Byte × List Byte)) :
    InBounds (Local.connectToRemote cfg s io d) := by
  simp only [Local.connectToRemote]
  by_cases n : cfg.remoteNum = 0
  · simp only [n, if_true, throw_bind]; exact ⟨by decide, by decide⟩
  · simp only [n, if_false, pure_bind]
    split
    · exact ok _
    · split
      · exact bind (free _ _) fun _ _ => ok _
      · exact ok _

theorem markDirect (direct : Bool) (remote : Option Ptr) : InBounds (Local.markDirect direct remote) := by
  unfold Local.markDirect
  split
  · cases remote
    · exact nullDeref
    · exact ok _
  · exact ok _

theorem readByte {b : Buf} {i : Nat} (within : i < b.cap) : InBounds (b.readByte i) := by
  simp [Buf.readByte, within, ok]

theorem read {b : Buf} {idx : Nat} {len : Int} (nonneg : 0 ≤ len) (within : idx + len.toNat ≤ b.cap) :
    InBounds (b.read idx len) := by
  rw [Buf.read_ok nonneg within]; exact ok _

theorem store {b : Buf} {off : Nat} {bytes : List Byte} (within : off + bytes.length ≤ b.cap) :
    InBounds (b.store off bytes) := by
  rw [Buf.store_ok within]; exact ok _

theorem send {s : State σ} {fd : Fd} {site : Site} {b : Buf} {idx len : Int} {res : Send}
    (start : 0 ≤ idx) (nonneg : 0 ≤ len) (within : idx.toNat + len.toNat ≤ b.cap) :
    InBounds (s.send fd site b idx len res) := by
  rw [State.send_ok start nonneg within]; exact ok _

end InBounds

/-- `sprintf("%d")` of a number below `10 ^ e` writes at most `e` digits. -/
theorem decimal_length_le {n e : Nat} (hlt : n < 10 ^ e) (pos : 0 < e) : (decimal n).length ≤ e := by
  rw [decimal, List.length_map]
  exact Nat.toDigitsCore_length 10 (by decide) _ n e hlt pos

theorem decimal_port_length (hi lo : Byte) : (decimal (port hi lo)).length ≤ 5 := by
  have : hi.toNat < 256 := hi.toNat_lt_size
  have : lo.toNat < 256 := lo.toNat_lt_size
  exact decimal_length_le (by unfold port; omega) (by decide)

/-- Each byte takes at most three digits and a dot. -/
theorem ipv4Text_length_le (a : List Byte) : (ipv4Text a).length ≤ 4 * a.length := by
  induction a with
  | nil => simp [ipv4Text, List.intercalate]
  | cons x t ih =>
    have digits : (decimal x.toNat).length ≤ 3 :=
      decimal_length_le (by have : x.toNat < 256 := x.toNat_lt_size; omega) (by decide)
    cases t with
    | nil => simp only [ipv4Text, List.map, List.intercalate, List.intersperse] at digits ⊢; simp; omega
    | cons y t =>
      have split : ipv4Text (x :: y :: t) = decimal x.toNat ++ [46] ++ ipv4Text (y :: t) := by
        simp [ipv4Text, List.intercalate, List.intersperse]
      simp only [split, List.length_append, List.length_cons, List.length_nil] at ih ⊢
      omega

/-- What the address parse writes: at most 259 header bytes (a name of 255), and host and port
texts that leave room for their NUL in `host[256]` and `port[16]`. -/
theorem addrHeader_sizes {b : Buf} {off : Nat} {atyp : Byte} {header host service : List Byte}
    (h : addrHeader b off atyp = .ok (some (header, host, service))) :
    header.length ≤ 259 ∧ host.length < 256 ∧ service.length < 16 := by
  unfold addrHeader at h
  split at h
  · obtain ⟨a, read, h⟩ := bind_eq_ok.1 h
    obtain ⟨-, -, rfl⟩ := Buf.read_eq_ok read
    simp only [pure_eq_ok, Option.some.injEq, Prod.mk.injEq] at h
    obtain ⟨rfl, rfl, rfl⟩ := h
    have := ipv4Text_length_le ((b.slice (off + 4) (Int.toNat 6)).take 4)
    refine ⟨by simp, by simp only [List.length_take, Buf.length_slice] at this; omega, (decimal_port_length _ _).trans_lt (by decide)⟩
  split at h
  · obtain ⟨n, -, h⟩ := bind_eq_ok.1 h
    obtain ⟨a, read, h⟩ := bind_eq_ok.1 h
    obtain ⟨-, -, rfl⟩ := Buf.read_eq_ok read
    simp only [pure_eq_ok, Option.some.injEq, Prod.mk.injEq] at h
    obtain ⟨rfl, rfl, rfl⟩ := h
    have : n.toNat < 256 := n.toNat_lt_size
    have := (List.takeWhile_sublist (fun x : Byte => decide (x ≠ 0))
      (l := (b.slice (off + 5) (Int.toNat (n.toNat + 2))).take n.toNat)).length_le
    refine ⟨by simp; omega, by simp only [List.length_take, Buf.length_slice] at this; omega, (decimal_port_length _ _).trans_lt (by decide)⟩
  split at h
  · obtain ⟨a, read, h⟩ := bind_eq_ok.1 h
    obtain ⟨-, -, rfl⟩ := Buf.read_eq_ok read
    simp only [pure_eq_ok, Option.some.injEq, Prod.mk.injEq] at h
    obtain ⟨rfl, rfl, rfl⟩ := h
    simp
  · simp at h

namespace InBounds

/-- The address parse reads at most 262 bytes from `off`: the last port byte of the longest name. -/
theorem addrHeader {b : Buf} {off : Nat} (atyp : Byte) (within : off + 262 ≤ b.cap) :
    InBounds (addrHeader b off atyp) := by
  unfold Local.addrHeader
  split
  · exact bind (read (by decide) (by simp; omega)) fun _ _ => ok _
  split
  · refine bind (readByte (by omega)) fun n _ => ?_
    exact bind (read (by omega) (by have : n.toNat < 256 := n.toNat_lt_size; omega))
      fun _ _ => ok _
  split
  · exact bind (read (by decide) (by simp; omega)) fun _ _ => ok _
  · exact ok _

theorem copyPayload {rb b : Buf} {dst off : Nat} {r : Int} (src : off + r.toNat ≤ b.cap)
    (room : dst + r.toNat ≤ rb.cap) : InBounds (Local.copyPayload rb dst b off r) := by
  unfold Local.copyPayload
  split
  · refine bind (read (by omega) src) fun bytes h => store ?_
    rw [(Buf.read_eq_ok h).2.2, Buf.length_slice]; exact room
  · exact ok _

/-- The first window fits when the header and the payload fit `remote->buf`. -/
theorem firstChunk {direct : Bool} {header : List Byte} {b rb : Buf} {off : Nat} {r : Int}
    (src : off + r.toNat ≤ b.cap) (room : header.length + r.toNat ≤ rb.cap) :
    InBounds (Local.firstChunk direct header b off r rb) := by
  unfold Local.firstChunk
  split
  · refine bind (store (by omega)) fun rb₁ h => bind (copyPayload src ?_) fun _ _ => ok _
    rw [(Buf.store_eq_ok.1 h).2, Buf.write_cap]; exact room
  · exact bind (copyPayload src (by omega)) fun _ _ => ok _

end InBounds

section Stage1

variable (cfg : Config) {s : State σ} {p : Ptr} {io : Io}

namespace InBounds

/-- The CONNECT branch on a `BUF_SIZE` buffer holding `r ≤ BUF_SIZE` bytes at offset 0. -/
theorem connectRequest {b : Buf} {l : Locals} (cap : b.cap = bufSize) (start : l.off = 0)
    (within : l.r ≤ bufSize) : InBounds (Local.connectRequest cfg p io l b s) := by
  have big : 262 ≤ bufSize := by decide
  unfold Local.connectRequest
  refine bind (readByte (by rw [start, cap]; decide)) fun atyp _ => ?_
  refine bind (addrHeader atyp (by rw [start, cap]; decide)) fun parsed hparsed => ?_
  rcases parsed with _ | ⟨header, host, service⟩
  · exact bind (teardown _ _ _) fun _ _ => ok _
  have short := (addrHeader_sizes hparsed).1
  refine bind (server? _ _) fun _ _ => bind (connectToRemote _ _ _ _) fun res conn => ?_
  obtain ⟨remote, s₁⟩ := res
  refine bind (markDirect _ _) fun _ _ => ?_
  rcases remote with _ | q
  · exact bind (closeAndFreeServer _ _) fun _ _ => ok _
  refine bind (remote? _ _) fun rm hrm => bind (deref _) fun rb hrb => ?_
  have fresh := connectToRemote_fresh cfg conn (State.remote?_eq_ok.1 hrm) (deref_eq_ok.1 hrb)
  refine bind (firstChunk (by rw [start, cap]; omega) (by rw [fresh]; omega)) fun _ _ =>
    bind (server? _ _) fun _ _ => ok _

/-- The reply fits any server buffer of at least ten bytes. -/
theorem reply {udp : Bool} {addr : List Byte} {l : Locals}
    (room : ∀ sv sb, s.servers p = some sv → sv.buf = some sb → 10 ≤ sb.cap) :
    InBounds (Local.reply p io udp addr l s) := by
  unfold Local.reply
  refine bind (server? _ _) fun sv hsv => bind (deref _) fun sb hsb => ?_
  have big := room sv sb (State.server?_eq_ok.1 hsv) (deref_eq_ok.1 hsb)
  have len : ([5, 0, 0, 1] ++ sockAddr addr).length = 10 := by simp [sockAddr]
  refine bind (store (by omega)) fun sb' stored => ?_
  have cap : sb'.cap = sb.cap := by rw [(Buf.store_eq_ok.1 stored).2, Buf.write_cap]
  refine bind (send (by decide) (by decide) (by simp; omega)) fun res _ => ?_
  obtain ⟨res, s'⟩ := res
  simp only [pure_bind]
  split
  · exact bind (teardown _ _ _) fun _ _ => ok _
  split
  · exact bind (teardown _ _ _) fun _ _ => ok _
  · exact ok _

/-- Stage 1 on the server's own `BUF_SIZE` buffer (`remote` is NULL there, so `buf` is
`server->buf`) holding `r ≤ BUF_SIZE` bytes. -/
theorem request {sv : Server σ} {b : Buf} {remote : Option Ptr} {r : Int} (hp : s.servers p = some sv)
    (hb : sv.buf = some b) (cap : b.cap = bufSize) (within : r ≤ bufSize) :
    InBounds (Local.request cfg p io ⟨remote, none, 0, r⟩ s) := by
  have room : ∀ sv' sb, s.servers p = some sv' → sv'.buf = some sb → 10 ≤ sb.cap := by
    intro sv' sb h h'
    rw [hp, Option.some.injEq] at h
    subst h
    rw [hb, Option.some.injEq] at h'
    subst h'
    rw [cap]; decide
  have buffer : bufferOf s p none = .ok b := by simp [bufferOf, State.server?_of hp, hb, Local.deref]
  unfold Local.request
  refine bind (server? _ _) fun _ _ => ?_
  rw [show bufferOf s p (⟨remote, none, 0, r⟩ : Locals).bufOwner = .ok b from buffer, ok_bind]
  refine bind (readByte (by rw [cap]; show 1 < bufSize; decide)) fun cmd _ => ?_
  split
  · exact reply room
  split
  · exact bind (teardown _ _ _) fun _ _ => ok _
  refine bind (connectRequest cfg cap rfl within) fun res h => ?_
  obtain ⟨_ | l', s'⟩ := res
  · exact ok _
  refine reply fun sv' sb h' hb' => ?_
  obtain ⟨-, -, -, -, sv₀, q, -, -, -, -, -, h₀, h₁, -⟩ := connectRequest_some cfg h
  rw [h₁, Option.some.injEq] at h'
  subst h'
  rw [hp, Option.some.injEq] at h₀
  subst h₀
  exact room _ sb hp hb'

end InBounds

theorem stage_one_in_bounds {sv : Server σ} {b : Buf} {remote : Option Ptr} {r : Int}
    (hp : s.servers p = some sv) (hb : sv.buf = some b) (cap : b.cap = bufSize) (within : r ≤ bufSize) :
    request cfg p io ⟨remote, none, 0, r⟩ s ≠ .error .outOfBounds ∧
      request cfg p io ⟨remote, none, 0, r⟩ s ≠ .error .badLength ∧
      (∀ atyp header host service, addrHeader b 0 atyp = .ok (some (header, host, service)) →
        header.length ≤ 259 ∧ host.length < 256 ∧ service.length < 16) ∧
      (b.data 3 = 3 → b.data 4 = 255 → ∃ header host service,
        addrHeader b 0 3 = .ok (some (header, host, service)) ∧ header.length = 259) := by
  have safe : InBounds (request cfg p io ⟨remote, none, 0, r⟩ s) := InBounds.request cfg hp hb cap within
  refine ⟨fun h => ?_, fun h => ?_, fun _ _ _ _ h => addrHeader_sizes h, fun kind len => ?_⟩
  · rw [h] at safe; exact safe.1 rfl
  · rw [h] at safe; exact safe.2 rfl
  -- the longest name: a 259-byte header read from `buf[3..262)`
  have size : addrLength 3 (b.data (0 + 4)) = 259 := by rw [Nat.zero_add, len]; rfl
  have fits : 0 + 3 + addrLength 3 (b.data (0 + 4)) ≤ b.cap := by rw [size, cap]; decide
  obtain ⟨header, host, service, parsed⟩ := addrHeader_some (.inr (.inl rfl)) fits
  refine ⟨header, host, service, parsed, ?_⟩
  rw [addrHeader_header parsed (by rwa [Nat.zero_add]), Buf.length_slice, size]

/-- A new server whose buffer holds a domain CONNECT with the longest name, `05 01 00 03 ff`,
255 bytes of `a` and port 80: the whole 262-byte request is read in bounds, and its header is
259 bytes. -/
theorem stage_one_in_bounds_longest_name :
    let b₁ : Buf := ⟨2, bufSize, fun i =>
      if i < 5 then [5, 1, 0, 3, 255].getD i 0 else if i < 260 then 97 else if i = 261 then 80 else 0⟩
    let s₁ := (acceptCb Cipher.identity plainCfg (initial false : State Unit) {}).setServer 1
      ⟨0, some b₁, 0, 0, 1, none, none, 3, 4, none⟩
    s₁.servers 1 = some ⟨0, some b₁, 0, 0, 1, none, none, 3, 4, none⟩ ∧ b₁.cap = bufSize ∧
      (262 : Int) ≤ bufSize ∧ b₁.data 3 = 3 ∧ b₁.data 4 = 255 ∧
      (request plainCfg 1 {} ⟨none, none, 0, 262⟩ s₁ ≠ .error .outOfBounds ∧
        request plainCfg 1 {} ⟨none, none, 0, 262⟩ s₁ ≠ .error .badLength ∧
        (∀ atyp header host service, addrHeader b₁ 0 atyp = .ok (some (header, host, service)) →
          header.length ≤ 259 ∧ host.length < 256 ∧ service.length < 16) ∧
        (b₁.data 3 = 3 → b₁.data 4 = 255 → ∃ header host service,
          addrHeader b₁ 0 3 = .ok (some (header, host, service)) ∧ header.length = 259)) :=
  ⟨by simp, rfl, by decide, rfl, rfl, stage_one_in_bounds plainCfg rfl rfl rfl (by decide)⟩

end Stage1

end Shadowsocks.Local
