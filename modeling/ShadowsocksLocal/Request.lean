import ShadowsocksLocal.Upstream

/-! Stage 1 of `server_recv_cb` against the wire format. The address header `ss_addr_to_send`
is the request's own bytes from the type byte on, as long as its first two bytes say; the
first window in `remote->buf` is the request after `ver cmd rsv` (relayed) or after the header
(direct), and a direct session looks up the text of the header. Nothing checks that the header
is all there: a request cut inside its address still reaches stage 5. -/
namespace Shadowsocks.Local

/-- The length `L` of a SOCKS5 address whose type byte is `atyp` and whose next byte is `len`:
the type byte, then four address bytes (IPv4), a length byte and `len` name bytes (a domain), or
sixteen address bytes (IPv6), then the two port bytes. -/
def addrLength (atyp len : Byte) : Nat :=
  if atyp = 1 then 7 else if atyp = 3 then 4 + len.toNat else if atyp = 4 then 19 else 0

/-- The address of a SOCKS5 request `05 cmd 00 atyp ...`: the `L` bytes from its type byte. -/
def headerOf (req : List Byte) : List Byte := (req.drop 3).take (addrLength (req.getD 3 0) (req.getD 4 0))

/-- The host `connect_to_remote` gets for a direct request, read off its header: the IPv4
address in dotted decimal, or the name up to its first NUL byte (the host is a C string). -/
def destHost (header : List Byte) : List Byte :=
  if header.getD 0 0 = 1 then ipv4Text ((header.drop 1).take 4)
  else ((header.drop 2).take (header.getD 1 0).toNat).takeWhile (· ≠ 0)

/-- The port of a header: its last two bytes, big-endian, in decimal. -/
def destPort (header : List Byte) : List Byte :=
  decimal (port (header.getD (header.length - 2) 0) (header.getD (header.length - 1) 0))

/-- The received bytes `req` at the start of the stage-1 buffer hold a CONNECT whose type is
supported and whose header is all there. -/
structure Complete (b : Buf) (req : List Byte) : Prop where
  stored : b.slice 0 req.length = req
  fits : req.length ≤ b.cap
  kind : req.getD 3 0 = 1 ∨ req.getD 3 0 = 3 ∨ req.getD 3 0 = 4
  whole : 3 + addrLength (req.getD 3 0) (req.getD 4 0) ≤ req.length

/-- The received bytes `req` at the start of the stage-1 buffer stop inside the address: the type
byte is in, but not all `3 + L` bytes of the header. -/
structure Truncated (b : Buf) (req : List Byte) : Prop where
  stored : b.slice 0 req.length = req
  typed : 4 ≤ req.length
  short : req.length < 3 + addrLength (req.getD 3 0) (b.data 4)

section Parse

variable {b : Buf} {off : Nat} {atyp : Byte} {header host service : List Byte}

/-- The header `addrHeader` builds is the buffer's bytes from the type byte on, `L` of them. -/
theorem addrHeader_header (h : addrHeader b off atyp = .ok (some (header, host, service)))
    (kind : b.data (off + 3) = atyp) : header = b.slice (off + 3) (addrLength atyp (b.data (off + 4))) := by
  unfold addrHeader at h
  split at h
  next one =>
    obtain ⟨a, read, h⟩ := bind_eq_ok.1 h
    obtain ⟨-, -, rfl⟩ := Buf.read_eq_ok read
    simp only [pure_eq_ok, Option.some.injEq, Prod.mk.injEq] at h
    rw [← h.1, addrLength, if_pos one, Buf.slice_succ, kind, one]
    rfl
  split at h
  next three =>
    obtain ⟨n, hn, h⟩ := bind_eq_ok.1 h
    obtain ⟨-, rfl⟩ := Buf.readByte_eq_ok hn
    obtain ⟨a, read, h⟩ := bind_eq_ok.1 h
    obtain ⟨-, -, rfl⟩ := Buf.read_eq_ok read
    simp only [pure_eq_ok, Option.some.injEq, Prod.mk.injEq] at h
    rw [← h.1, addrLength, if_neg (by rw [three]; decide), if_pos three,
      show 4 + (b.data (off + 4)).toNat = (b.data (off + 4)).toNat + 2 + 1 + 1 by omega, Buf.slice_succ,
      Buf.slice_succ, kind, three]
    rfl
  split at h
  next four =>
    obtain ⟨a, read, h⟩ := bind_eq_ok.1 h
    obtain ⟨-, -, rfl⟩ := Buf.read_eq_ok read
    simp only [pure_eq_ok, Option.some.injEq, Prod.mk.injEq] at h
    rw [← h.1, addrLength, if_neg (by rw [four]; decide), if_neg (by rw [four]; decide), if_pos four,
      Buf.slice_succ, kind, four]
    rfl
  · simp at h

/-- For the two address types that can go direct, the host and port text is read off the header. -/
theorem addrHeader_dest (h : addrHeader b off atyp = .ok (some (header, host, service)))
    (named : atyp = 1 ∨ atyp = 3) : host = destHost header ∧ service = destPort header := by
  rcases named with rfl | rfl
  · obtain ⟨a, read, h⟩ := bind_eq_ok.1 h
    obtain ⟨-, -, rfl⟩ := Buf.read_eq_ok read
    simp only [pure_eq_ok, Option.some.injEq, Prod.mk.injEq] at h
    obtain ⟨rfl, rfl, rfl⟩ := h
    simp [destHost, destPort]
  · simp only [addrHeader, if_neg (by decide : (3 : Byte) ≠ 1), if_true] at h
    obtain ⟨n, -, h⟩ := bind_eq_ok.1 h
    obtain ⟨a, read, h⟩ := bind_eq_ok.1 h
    obtain ⟨-, -, rfl⟩ := Buf.read_eq_ok read
    simp only [pure_eq_ok, Option.some.injEq, Prod.mk.injEq] at h
    obtain ⟨rfl, rfl, rfl⟩ := h
    rw [show ((n.toNat : Int) + 2).toNat = n.toNat + 2 by omega]
    simp [destHost, destPort]

/-- When the whole header lies in the buffer, the parse gives one. -/
theorem addrHeader_some (kind : atyp = 1 ∨ atyp = 3 ∨ atyp = 4)
    (within : off + 3 + addrLength atyp (b.data (off + 4)) ≤ b.cap) :
    ∃ header host service, addrHeader b off atyp = .ok (some (header, host, service)) := by
  rcases kind with rfl | rfl | rfl
  · have read : b.read (off + 4) 6 = .ok (b.slice (off + 4) 6) :=
      Buf.read_ok (by decide) (by simp [addrLength] at within ⊢; omega)
    exact ⟨_, _, _, by rw [addrHeader, if_pos rfl, read]; rfl⟩
  · have read : b.read (off + 5) ((b.data (off + 4)).toNat + 2) =
        .ok (b.slice (off + 5) ((b.data (off + 4)).toNat + 2)) :=
      Buf.read_ok (by omega) (by simp [addrLength] at within; omega)
    have byte : b.readByte (off + 4) = .ok (b.data (off + 4)) := by
      simp [addrLength] at within; simp [Buf.readByte]; omega
    exact ⟨_, _, _, by rw [addrHeader, if_neg (by decide), if_pos rfl, byte, ok_bind, read]; rfl⟩
  · have read : b.read (off + 4) 18 = .ok (b.slice (off + 4) 18) :=
      Buf.read_ok (by decide) (by simp [addrLength] at within ⊢; omega)
    exact ⟨_, _, _, by rw [addrHeader, if_neg (by decide), if_neg (by decide), if_pos rfl, read]; rfl⟩

/-- `if (r > 0) memcpy(rb + dst, b + off, r)`: the copy lands at `dst`, and nothing before it moves. -/
theorem copyPayload_slice {rb rb' : Buf} {dst : Nat} {r : Int} (h : copyPayload rb dst b off r = .ok rb') :
    rb'.slice dst r.toNat = b.slice off r.toNat ∧ ∀ i len, i + len ≤ dst → rb'.slice i len = rb.slice i len := by
  unfold copyPayload at h
  split at h
  · obtain ⟨bytes, read, h⟩ := bind_eq_ok.1 h
    obtain ⟨-, -, rfl⟩ := Buf.read_eq_ok read
    obtain ⟨-, rfl⟩ := Buf.store_eq_ok.1 h
    exact ⟨by simpa using Buf.slice_write rb dst (b.slice off r.toNat),
      fun i len before => Buf.slice_write_before rb _ before⟩
  · cases h
    simp [show r.toNat = 0 by omega, Buf.slice]

/-- The relayed first window: the header, then the payload, cut at the window's length. -/
theorem firstChunk_relayed {rb rb' : Buf} {r r' : Int} (h : firstChunk false header b off r rb = .ok (rb', r')) :
    r' = r + header.length ∧ rb'.slice 0 r'.toNat = (header ++ b.slice off r.toNat).take r'.toNat := by
  simp only [firstChunk, Bool.not_false, if_true] at h
  obtain ⟨rb₁, stored, h⟩ := bind_eq_ok.1 h
  obtain ⟨-, rfl⟩ := Buf.store_eq_ok.1 stored
  obtain ⟨rb₂, copied, h⟩ := bind_eq_ok.1 h
  simp only [pure_eq_ok, Prod.mk.injEq] at h
  obtain ⟨rfl, rfl⟩ := h
  obtain ⟨payload, front⟩ := copyPayload_slice copied
  refine ⟨rfl, ?_⟩
  by_cases pos : 0 < r
  · rw [show (r + header.length).toNat = header.length + r.toNat by omega, Buf.slice_add, Nat.zero_add, payload,
      front 0 _ (Nat.zero_add _).le, Buf.slice_write, List.take_of_length_le (by simp)]
  · rw [show r.toNat = 0 by omega, front 0 _ (by omega), Buf.slice_write_take _ _ _ (by omega)]
    simp [Buf.slice]

/-- The direct first window: the payload alone. -/
theorem firstChunk_direct {rb rb' : Buf} {r r' : Int} (h : firstChunk true header b off r rb = .ok (rb', r')) :
    r' = r ∧ rb'.slice 0 r.toNat = b.slice off r.toNat := by
  simp only [firstChunk, Bool.not_true] at h
  obtain ⟨rb₂, copied, h⟩ := bind_eq_ok.1 h
  simp only [pure_eq_ok, Prod.mk.injEq] at h
  obtain ⟨rfl, rfl⟩ := h
  exact ⟨rfl, (copyPayload_slice copied).1⟩

end Parse

section Connect

variable {σ : Type} (cfg : Config) {s s' : State σ} {p : Ptr} {io : Io} {b : Buf}

/-- A CONNECT that goes on: the request's type byte and header as parsed, the server at stage 5
paired with a new remote whose fresh `BUF_SIZE` buffer now holds the first window. -/
theorem connectRequest_some {l l' : Locals} (h : connectRequest cfg p io l b s = .ok (some l', s')) :
    ∃ atyp header host service sv q rm rb rb₀, b.readByte (l.off + 3) = .ok atyp ∧
      addrHeader b l.off atyp = .ok (some (header, host, service)) ∧ s.servers p = some sv ∧
      s'.servers p = some { sv with stage := 5, remote := some q } ∧ s'.remotes q = some rm ∧
      l'.remote = some q ∧ l'.off = l.off + 3 + header.length ∧ rm.buf = some rb ∧
      rm.direct = (cfg.acl && (atyp == 1 && io.aclIp || atyp == 3 && io.aclDomain)) ∧
      (rm.direct = true → io.resolve (.named host service) = true) ∧ rb₀.cap = bufSize ∧
      firstChunk rm.direct header b (l.off + 3 + header.length) (l.r - (3 + header.length)) rb₀ = .ok (rb, l'.r) ∧
      rm.connected = false ∧ s'.trace = s.trace ∧ s'.fastOpen = s.fastOpen := by
  unfold connectRequest at h
  obtain ⟨atyp, hatyp, h⟩ := bind_eq_ok.1 h
  obtain ⟨parsed, hparsed, h⟩ := bind_eq_ok.1 h
  rcases parsed with _ | ⟨header, host, service⟩
  · obtain ⟨t, _, h⟩ := bind_eq_ok.1 h
    simp at h
  obtain ⟨sv, hsv, h⟩ := bind_eq_ok.1 h
  obtain ⟨⟨remote, s₁⟩, conn, h⟩ := bind_eq_ok.1 h
  obtain ⟨_, -, h⟩ := bind_eq_ok.1 h
  rcases remote with _ | q
  · obtain ⟨t, _, h⟩ := bind_eq_ok.1 h
    simp at h
  obtain ⟨rm, hrm, h⟩ := bind_eq_ok.1 h
  obtain ⟨rb₀, hrb, h⟩ := bind_eq_ok.1 h
  obtain ⟨⟨rb, r⟩, chunk, h⟩ := bind_eq_ok.1 h
  obtain ⟨sv', hsv', h⟩ := bind_eq_ok.1 h
  simp only [pure_eq_ok, Prod.mk.injEq, Option.some.injEq] at h
  obtain ⟨rfl, rfl⟩ := h
  replace hsv := State.server?_eq_ok.1 hsv
  replace hsv' := State.server?_eq_ok.1 hsv'
  rw [connectToRemote_servers cfg conn] at hsv'
  simp only [State.setServer_servers, Function.update_same, Option.some.injEq] at hsv'
  subst hsv'
  obtain ⟨-, -, named⟩ := connectToRemote_some cfg conn
  have fresh := connectToRemote_fresh cfg conn (State.remote?_eq_ok.1 hrm) (deref_eq_ok.1 hrb)
  obtain ⟨unconnected, quiet, kept⟩ := connectToRemote_unconnected cfg conn (State.remote?_eq_ok.1 hrm)
  refine ⟨atyp, header, host, service, sv, q,
    { rm with
      buf := some rb
      direct := cfg.acl && (atyp == 1 && io.aclIp || atyp == 3 && io.aclDomain)
      server := some p },
    rb, rb₀, hatyp, hparsed, hsv, by simp, by simp, rfl, rfl, rfl, rfl,
    fun direct => named host service (if_pos direct), fresh, chunk, unconnected, by simp [quiet], by simp [kept]⟩

/-- A complete request parses to its own header, whose first two bytes are the type and length
bytes of the request. -/
theorem Complete.parse {req : List Byte} (c : Complete b req) :
    (headerOf req).length = addrLength (req.getD 3 0) (req.getD 4 0) ∧ (headerOf req).getD 0 0 = req.getD 3 0 ∧
      (headerOf req).getD 1 0 = req.getD 4 0 ∧ b.data 3 = req.getD 3 0 ∧
      ∃ host service, addrHeader b 0 (req.getD 3 0) = .ok (some (headerOf req, host, service)) := by
  obtain ⟨stored, fits, kind, whole⟩ := c
  have long : 4 ≤ addrLength (req.getD 3 0) (req.getD 4 0) := by
    rcases kind with k | k | k <;> rw [k] <;> simp [addrLength]
  have atyp : b.data (0 + 3) = req.getD 3 0 := Buf.data_of_prefix stored (by omega)
  have len : b.data (0 + 4) = req.getD 4 0 := Buf.data_of_prefix stored (by omega)
  obtain ⟨header, host, service, parsed⟩ := addrHeader_some kind (by rw [len]; omega)
  obtain rfl : header = headerOf req := by
    rw [addrHeader_header parsed atyp, len, Buf.slice_of_prefix stored (by omega), headerOf]
  have byte : ∀ i, i < addrLength (req.getD 3 0) (req.getD 4 0) → (headerOf req).getD i 0 = req.getD (3 + i) 0 := by
    intro i hi
    rw [headerOf, List.getD_eq_getElem?_getD, List.getElem?_take_of_lt hi, List.getElem?_drop,
      ← List.getD_eq_getElem?_getD]
  exact ⟨by simp only [headerOf, List.length_take, List.length_drop]; omega, byte 0 (by omega), byte 1 (by omega),
    atyp, host, service, parsed⟩

theorem connect_request_layout {req : List Byte} {remote : Option Ptr} (c : Complete b req) :
    (headerOf req).length = addrLength ((headerOf req).getD 0 0) ((headerOf req).getD 1 0) ∧
    (∃ host service, addrHeader b 0 (req.getD 3 0) = .ok (some (headerOf req, host, service))) ∧
    ∀ l' s', connectRequest cfg p io ⟨remote, none, 0, req.length⟩ b s = .ok (some l', s') →
      ∃ q rm rb, l'.remote = some q ∧ s'.remotes q = some rm ∧ rm.buf = some rb ∧
        if rm.direct then
          l'.r = req.length - 3 - (headerOf req).length ∧ rb.slice 0 l'.r.toNat = req.drop (3 + (headerOf req).length) ∧
            io.resolve (.named (destHost (headerOf req)) (destPort (headerOf req))) = true
        else l'.r = req.length - 3 ∧ rb.slice 0 l'.r.toNat = req.drop 3 := by
  obtain ⟨size, type, len, atyp, host, service, parsed⟩ := c.parse
  have whole := c.whole
  refine ⟨by rw [type, len, size], ⟨host, service, parsed⟩, fun l' s' h => ?_⟩
  obtain ⟨atyp', header', host', service', sv, q, rm, rb, rb₀, hatyp, hparsed, -, -, hrm, hq, -, hb, flag,
    resolved, -, chunk, -⟩ := connectRequest_some cfg h
  dsimp only at hatyp flag chunk
  obtain ⟨-, rfl⟩ := Buf.readByte_eq_ok hatyp
  rw [atyp, parsed] at hparsed
  obtain ⟨rfl, rfl, rfl⟩ : headerOf req = header' ∧ host = host' ∧ service = service' := by simpa using hparsed
  -- the payload after the header is the rest of what was received
  have rest : b.slice (3 + (headerOf req).length) (req.length - (3 + (headerOf req).length) : Int).toNat =
      req.drop (3 + (headerOf req).length) := by
    rw [Buf.slice_of_prefix c.stored (by omega), List.take_of_length_le (by simp; omega)]
  refine ⟨q, rm, rb, hq, hrm, hb, ?_⟩
  cases d : rm.direct
  · rw [d] at chunk
    obtain ⟨r', window⟩ := firstChunk_relayed chunk
    simp only [Nat.zero_add] at window
    rw [rest] at window
    have split : headerOf req ++ req.drop (3 + (headerOf req).length) = req.drop 3 := by
      rw [← List.drop_drop, size]
      exact List.take_append_drop _ _
    rw [if_neg Bool.false_ne_true]
    refine ⟨by omega, ?_⟩
    rw [window, split, List.take_of_length_le (by simp; omega)]
  · rw [d] at chunk
    obtain ⟨r', window⟩ := firstChunk_direct chunk
    simp only [Nat.zero_add] at window
    rw [rest, ← r'] at window
    have named : req.getD 3 0 = 1 ∨ req.getD 3 0 = 3 := by
      simp only [d, atyp, eq_comm (a := true), Bool.and_eq_true, Bool.or_eq_true, beq_iff_eq] at flag
      exact flag.2.imp And.left And.left
    obtain ⟨rfl, rfl⟩ := addrHeader_dest parsed named
    rw [if_pos rfl]
    exact ⟨by omega, window, resolved d⟩

theorem connect_request_layout_ipv4 :
    let req : List Byte := [5, 1, 0, 1, 127, 0, 0, 1, 0, 80, 71, 69, 84]
    let b : Buf := ⟨2, bufSize, fun i => req.getD i 0⟩
    let s : State Unit := acceptCb Cipher.identity plainCfg (initial false) {}
    Complete b req ∧
      (headerOf req).length = addrLength ((headerOf req).getD 0 0) ((headerOf req).getD 1 0) ∧
      (∃ host service, addrHeader b 0 (req.getD 3 0) = .ok (some (headerOf req, host, service))) ∧
      ∀ l' s', connectRequest plainCfg 1 {} ⟨none, none, 0, req.length⟩ b s = .ok (some l', s') →
        ∃ q rm rb, l'.remote = some q ∧ s'.remotes q = some rm ∧ rm.buf = some rb ∧
          if rm.direct then
            l'.r = req.length - 3 - (headerOf req).length ∧
              rb.slice 0 l'.r.toNat = req.drop (3 + (headerOf req).length) ∧
              ({} : Io).resolve (.named (destHost (headerOf req)) (destPort (headerOf req))) = true
          else l'.r = req.length - 3 ∧ rb.slice 0 l'.r.toNat = req.drop 3 :=
  have c : Complete ⟨2, bufSize, fun i => [5, 1, 0, 1, 127, 0, 0, 1, 0, 80, 71, 69, 84].getD i 0⟩
      [5, 1, 0, 1, 127, 0, 0, 1, 0, 80, 71, 69, 84] := ⟨by decide, by decide, by decide, by decide⟩
  ⟨c, connect_request_layout plainCfg c⟩

/-- A direct CONNECT to the name `61 00 62`, port 80: `connect_to_remote` gets the host `61`. With
a resolver that knows only `61` the session goes on; with one that knows only the three name
bytes the lookup fails (and the callback follows the NULL remote). -/
theorem nul_in_name_cuts_host :
    let req : List Byte := [5, 1, 0, 3, 3, 97, 0, 98, 0, 80]
    let b : Buf := ⟨2, bufSize, fun i => req.getD i 0⟩
    let s : State Unit := acceptCb Cipher.identity aclCfg (initial false) {}
    (∃ l' s', connectRequest aclCfg 1 { aclDomain := true, resolve := fun d => decide (d = .named [97] [56, 48]) }
        ⟨none, none, 0, 10⟩ b s = .ok (some l', s')) ∧
    connectRequest aclCfg 1 { aclDomain := true, resolve := fun d => decide (d = .named [97, 0, 98] [56, 48]) }
        ⟨none, none, 0, 10⟩ b s = .error .nullDeref :=
  ⟨⟨_, _, rfl⟩, rfl⟩

/-- A request cut inside its address still goes on: the server is at stage 5, and the first
window is what was received after `ver cmd rsv`, shorter than the header (relayed), or has a
negative length (direct). -/
theorem truncated_request_relayed {req : List Byte} {remote : Option Ptr} {l' : Locals} (t : Truncated b req)
    (h : connectRequest cfg p io ⟨remote, none, 0, req.length⟩ b s = .ok (some l', s')) :
    ∃ sv q rm rb, s'.servers p = some sv ∧ sv.stage = 5 ∧ l'.remote = some q ∧ s'.remotes q = some rm ∧
      rm.buf = some rb ∧
      if rm.direct then l'.r = req.length - 3 - addrLength (req.getD 3 0) (b.data 4) ∧ l'.r < 0
      else l'.r = req.length - 3 ∧ l'.r < addrLength (req.getD 3 0) (b.data 4) ∧
        rb.slice 0 l'.r.toNat = req.drop 3 := by
  obtain ⟨stored, typed, short⟩ := t
  obtain ⟨atyp, header, host, service, sv, q, rm, rb, rb₀, hatyp, hparsed, -, hp, hrm, hq, -, hb, -, -, -, chunk, -⟩ :=
    connectRequest_some cfg h
  dsimp only at hatyp hparsed chunk
  obtain ⟨-, rfl⟩ := Buf.readByte_eq_ok hatyp
  have kind : b.data 3 = req.getD 3 0 := Buf.data_of_prefix stored (by omega)
  have parsed := addrHeader_header hparsed rfl
  simp only [Nat.zero_add] at parsed
  rw [kind] at parsed
  have size : header.length = addrLength (req.getD 3 0) (b.data 4) := by rw [parsed, Buf.length_slice]
  refine ⟨_, q, rm, rb, hp, rfl, hq, hrm, hb, ?_⟩
  cases d : rm.direct
  · rw [d] at chunk
    obtain ⟨r', window⟩ := firstChunk_relayed chunk
    rw [if_neg Bool.false_ne_true]
    have sent : l'.r = req.length - 3 := by omega
    refine ⟨sent, by omega, ?_⟩
    -- no payload was copied: the window is the first `r - 3` bytes of the header
    rw [window, show (req.length - (3 + header.length) : Int).toNat = 0 by omega]
    simp only [Buf.slice, List.range_zero, List.map_nil, List.append_nil]
    rw [parsed, Buf.slice_take, Nat.min_eq_left (by omega), sent,
      show (req.length - 3 : Int).toNat = req.length - 3 by omega, Buf.slice_of_prefix stored (by omega),
      List.take_of_length_le (by simp)]
  · rw [d] at chunk
    obtain ⟨r', -⟩ := firstChunk_direct chunk
    rw [if_pos rfl]
    exact ⟨by omega, by omega⟩

/-- At the callback: a CONNECT cut inside its address, received alone at stage 1 with the table
method and fast open off, whose connect goes on and whose reply is sent whole, leaves the session
at stage 5 waiting for the connect. A relayed remote has been handed the bytes after
`ver cmd rsv` as its first window; a direct one holds the window's negative length. -/
theorem serverRecvCb_truncated (cipher : Cipher σ) {sv : Server σ} {bytes : List Byte} {k : Nat} {l' : Locals}
    {u : State σ} (hp : s.servers p = some sv) (alone : sv.remote = none) (hb : sv.buf = some b)
    (fits : bufSize ≤ b.cap) (got : io.recv = .data bytes) (stage1 : sv.stage = 1) (table : sv.eCtx = none)
    (closed : s.fastOpen = false) (t : Truncated (b.write 0 (bytes.take bufSize)) (bytes.take bufSize))
    (connect : (bytes.take bufSize).getD 1 0 = 1)
    (goes : connectRequest cfg p io ⟨none, none, 0, (bytes.take bufSize).length⟩ (b.write 0 (bytes.take bufSize))
      ((s.setServer p { sv with buf := some (b.write 0 (bytes.take bufSize)) }).emit
        (.recv sv.fd (bytes.take bufSize))) = .ok (some l', u))
    (sent : io.reply = .accept k) (whole : 10 ≤ k) :
    ∃ s', serverRecvCb cipher cfg p io s = .ok s' ∧ (s'.servers p).map Server.stage = some 5 ∧
      ∀ q rm, l'.remote = some q → u.remotes q = some rm →
        if rm.direct then (s'.remotes q).map Remote.bufLen = some l'.r ∧ l'.r < 0
        else s'.trace.flatMap (Event.plainOn rm.fd) =
          s.trace.flatMap (Event.plainOn rm.fd) ++ (bytes.take bufSize).drop 3 := by
  have typed := t.typed
  have nonempty : bytes ≠ [] := by rintro rfl; simp at typed
  obtain ⟨-, -, -, -, sv₀, q, rm, rb, -, -, -, hp₀, hp₅, hq, hl, -, hrb, -, -, -, -, fresh, quiet, kept⟩ :=
    connectRequest_some cfg goes
  obtain ⟨-, q', rm', rb', -, -, hl', hq', hrb', window⟩ := truncated_request_relayed cfg t goes
  obtain rfl : q = q' := Option.some.inj (hl.symm.trans hl')
  obtain rfl : rm = rm' := Option.some.inj (hq.symm.trans hq')
  obtain rfl : rb = rb' := Option.some.inj (hrb.symm.trans hrb')
  obtain rfl : sv₀ = { sv with buf := some (b.write 0 (bytes.take bufSize)) } := by simpa using hp₀.symm
  have room : 10 ≤ (b.write 0 (bytes.take bufSize)).cap := by rw [Buf.write_cap]; unfold bufSize at fits; omega
  have byte : (b.write 0 (bytes.take bufSize)).readByte (0 + 1) = .ok 1 := by
    rw [Buf.readByte, if_pos (by omega), Buf.data_of_prefix t.stored (by omega), connect]
  have replied := reply_again (l := l') hp₅ rfl room sent whole
  rw [serverRecvCb_stage1 cipher cfg hp alone hb fits got nonempty stage1, request_connect cfg hp₀
    (by simp [bufferOf, State.server?]) byte]
  simp only [goes, replied, ok_bind]
  rw [serverRecvLoop_stage5 cipher cfg (by simp; rfl) rfl, hl]
  have fastOff : u.fastOpen = false := by simp [kept, closed]
  cases d : rm.direct
  · -- relayed: the window is the table-encrypted prefix `req.drop 3`
    rw [d, if_neg Bool.false_ne_true] at window
    have enc : ssEncrypt cipher sv.eCtx (rb.slice 0 l'.r.toNat) =
        some ((rb.slice 0 l'.r.toNat).map cipher.encTable, none) := by simp [ssEncrypt, table]
    rw [relayUp_encrypted cipher (by simp; rfl) (by simpa using hq) d hrb (by exact enc),
      sendUp_connecting (by simp; rfl) (by exact fresh) (.inl (by simpa using fastOff))]
    refine ⟨_, rfl, by simp, fun q₁ rm₁ e h₁ => ?_⟩
    obtain rfl := Option.some.inj e
    obtain rfl := Option.some.inj (h₁.symm.trans hq)
    simp [d, quiet, Event.plainOn, window.2.2]
  · -- direct: the window's length is negative
    rw [d, if_pos rfl] at window
    rw [relayUp_direct cipher (by simp; rfl) (by simpa using hq) d hrb,
      sendUp_connecting (by simpa using hq) fresh (.inr d)]
    refine ⟨_, rfl, by simp, fun q₁ rm₁ e h₁ => ?_⟩
    obtain rfl := Option.some.inj e
    obtain rfl := Option.some.inj (h₁.symm.trans hq)
    simp [d, window.2]

end Connect

/-- The CONNECT `05 01 00 01 7f 00 00` stops after three of the four address bytes. The session
reaches stage 5 and hands the first four header bytes upstream as its first window; with the
address on the bypass list, the direct remote is left with a buffer length of `-3`. -/
theorem truncated_request_enters_relay :
    (∃ s, Reachable Cipher.identity plainCfg s ∧ (s.servers 1).map Server.stage = some 5 ∧
      s.trace.flatMap (Event.plainOn 7) = [1, 127, 0, 0]) ∧
    ∃ s, Reachable Cipher.identity aclCfg s ∧ (s.servers 1).map Server.stage = some 5 ∧
      (s.remotes 8).map Remote.bufLen = some (-3) := by
  -- accept and the greeting; the CONNECT after it is the callback of `serverRecvCb_truncated`
  have plain : Reachable Cipher.identity plainCfg (acceptCb Cipher.identity plainCfg (initial false) {}) :=
    .step .init (.tick .accept {} rfl)
  have acl : Reachable Cipher.identity aclCfg (acceptCb Cipher.identity aclCfg (initial false) {}) :=
    .step .init (.tick .accept {} rfl)
  obtain ⟨s₁, reach₁, stage₁, relayed⟩ := (plain.fire (.serverRecv 1) { recv := .data [5, 1, 0], reply := .accept 2 } rfl
      ((dispatch.eq_1 _ _ _ _ _).trans (serverRecvCb_stage0 _ _ rfl rfl rfl (by decide) rfl (by decide) rfl))).serverRecv 1
    { recv := .data [5, 1, 0, 1, 127, 0, 0], reply := .accept 10 }
    (serverRecvCb_truncated _ _ rfl rfl rfl (by decide) rfl rfl rfl rfl ⟨by decide, by decide, by decide⟩ rfl
      (by exact rfl) rfl (by decide)) rfl
  obtain ⟨s₂, reach₂, stage₂, direct⟩ := (acl.fire (.serverRecv 1) { recv := .data [5, 1, 0], reply := .accept 2 } rfl
      ((dispatch.eq_1 _ _ _ _ _).trans (serverRecvCb_stage0 _ _ rfl rfl rfl (by decide) rfl (by decide) rfl))).serverRecv 1
    { recv := .data [5, 1, 0, 1, 127, 0, 0], reply := .accept 10, aclIp := true }
    (serverRecvCb_truncated _ _ rfl rfl rfl (by decide) rfl rfl rfl rfl ⟨by decide, by decide, by decide⟩ rfl
      (by exact rfl) rfl (by decide)) rfl
  have relayed := relayed 8 _ rfl rfl
  have direct := direct 8 _ rfl rfl
  rw [if_neg (by decide)] at relayed
  rw [if_pos (by decide)] at direct
  exact ⟨⟨s₁, reach₁, stage₁, relayed.trans (by decide)⟩, s₂, reach₂, stage₂, direct.1⟩

end Shadowsocks.Local
