import Mathlib.Logic.Function.Basic
import Mathlib.Data.List.Basic

/-! The data of `local.c`: endpoint records, the libev watchers they own, the process heap
and descriptor table, and the results of the system calls a callback makes. `local.h` is not
among the sources, so the record fields are the ones the callbacks read and write. -/
namespace Shadowsocks.Local

abbrev Byte := UInt8
abbrev Ptr := Nat
abbrev Fd := Nat

/-- `BUF_SIZE`, the capacity of every endpoint buffer and of `ss_addr_to_send`. -/
def bufSize : Nat := 2048

/-- A `malloc`ed byte block. Fresh memory is uninitialised, so contents are a function. -/
structure Buf where
  ptr : Ptr
  cap : Nat
  data : Nat → Byte

namespace Buf

def slice (b : Buf) (idx len : Nat) : List Byte := (List.range len).map fun i => b.data (idx + i)

/-- `memcpy(b + off, bytes, bytes.length)`. -/
def write (b : Buf) (off : Nat) (bytes : List Byte) : Buf :=
  { b with data := fun i => if off ≤ i ∧ i < off + bytes.length then bytes.getD (i - off) 0 else b.data i }

/-- The buffer `ss_encrypt`/`ss_decrypt` hand back: at least `BUF_SIZE` long, output first. -/
def load (b : Buf) (bytes : List Byte) : Buf :=
  { b.write 0 bytes with cap := max b.cap bytes.length }

@[simp] theorem length_slice (b : Buf) (idx len : Nat) : (b.slice idx len).length = len := by
  simp [slice]

@[simp] theorem write_ptr (b : Buf) (off : Nat) (bytes : List Byte) : (b.write off bytes).ptr = b.ptr := rfl
@[simp] theorem write_cap (b : Buf) (off : Nat) (bytes : List Byte) : (b.write off bytes).cap = b.cap := rfl
@[simp] theorem load_ptr (b : Buf) (bytes : List Byte) : (b.load bytes).ptr = b.ptr := rfl
@[simp] theorem load_cap (b : Buf) (bytes : List Byte) : (b.load bytes).cap = max b.cap bytes.length := rfl

theorem slice_write (b : Buf) (off : Nat) (bytes : List Byte) :
    (b.write off bytes).slice off bytes.length = bytes := by
  apply List.ext_getElem (by simp)
  intro i hi _
  simp only [length_slice] at hi
  simp [slice, write, hi]

theorem slice_load (b : Buf) (bytes : List Byte) : (b.load bytes).slice 0 bytes.length = bytes :=
  slice_write b 0 bytes

theorem slice_add (b : Buf) (idx m n : Nat) :
    b.slice idx (m + n) = b.slice idx m ++ b.slice (idx + m) n := by
  simp only [slice, List.range_add, List.map_append, List.map_map]
  congr 1
  apply List.map_congr_left
  intro i _
  simp [Nat.add_assoc]

theorem slice_succ (b : Buf) (idx n : Nat) : b.slice idx (n + 1) = b.data idx :: b.slice (idx + 1) n := by
  simp only [slice, List.range_succ_eq_map, List.map_cons, List.map_map, Nat.add_zero]
  congr 1
  apply List.map_congr_left
  intro i _
  simp [Nat.add_assoc, Nat.add_comm 1 i]

theorem slice_take (b : Buf) (idx n m : Nat) : (b.slice idx n).take m = b.slice idx (min m n) := by
  simp only [slice, ← List.map_take, List.take_range]

/-- A write leaves every byte before it alone. -/
theorem slice_write_before (b : Buf) {idx len off : Nat} (bytes : List Byte) (before : idx + len ≤ off) :
    (b.write off bytes).slice idx len = b.slice idx len := by
  simp only [slice, write]
  apply List.map_congr_left
  intro i m
  simp only [List.mem_range] at m
  simp only [ite_eq_right_iff, and_imp]
  intro; omega

/-- The first `m` written bytes. -/
theorem slice_write_take (b : Buf) (off : Nat) (bytes : List Byte) {m : Nat} (le : m ≤ bytes.length) :
    (b.write off bytes).slice off m = bytes.take m := by
  conv_rhs => rw [← slice_write b off bytes]
  rw [slice_take, Nat.min_eq_left le]

/-- What is left of a send window once `k` of its bytes are accepted. -/
theorem slice_drop (b : Buf) (idx len k : Nat) (within : k ≤ len) :
    b.slice (idx + k) (len - k) = (b.slice idx len).drop k := by
  have split := slice_add b idx k (len - k)
  rw [Nat.add_sub_cancel' within] at split
  rw [split, List.drop_left' (length_slice b idx k)]

/-- A buffer whose first bytes are `req` reads them back at any window inside them. -/
theorem slice_of_prefix {b : Buf} {req : List Byte} (stored : b.slice 0 req.length = req) {i n : Nat}
    (within : i + n ≤ req.length) : b.slice i n = (req.drop i).take n := by
  have split := slice_add b 0 i (req.length - i)
  rw [Nat.add_sub_cancel' (by omega), stored, Nat.zero_add] at split
  rw [split, List.drop_left' (length_slice b 0 i), slice_take, Nat.min_eq_left (by omega)]

theorem data_of_prefix {b : Buf} {req : List Byte} (stored : b.slice 0 req.length = req) {i : Nat}
    (within : i < req.length) : b.data i = req.getD i 0 := by
  have := slice_of_prefix stored (n := 1) (by omega : i + 1 ≤ req.length)
  rw [List.drop_eq_getElem_cons within] at this
  simp only [slice, List.range_succ, List.range_zero, List.nil_append, List.map_cons, List.map_nil,
    List.take_succ_cons, List.take_zero, Nat.add_zero, List.cons.injEq, and_true] at this
  simp [this, List.getElem?_eq_getElem within]

end Buf

/-- The `errno` values the callbacks tell apart. `EWOULDBLOCK` is `EAGAIN`. -/
inductive Errno where
  | eagain
  | einprogress
  | enotconn
  | other (code : Nat)
  deriving DecidableEq, Repr

/-- One `recv`: the bytes read (`[]` is end of stream) or a failure. -/
inductive Recv where
  | data (bytes : List Byte)
  | error (e : Errno)
  deriving DecidableEq, Repr

/-- One `send` or `sendto`: the kernel accepts at most `n` bytes, or the call fails. -/
inductive Send where
  | accept (n : Nat)
  | error (e : Errno)
  deriving DecidableEq, Repr

/-- What `connect_to_remote` asks `getaddrinfo` for: a configured relay or the destination. -/
inductive Dest where
  | relay (index : Nat)
  | named (host port : List Byte)
  deriving DecidableEq, Repr

/-- The outcomes of the system calls and collaborator queries of one callback. Each is
consumed at most once per callback; `reply` serves the SOCKS5 replies, `send` the relay. -/
structure Io where
  recv : Recv := .error .eagain
  send : Send := .error .eagain
  reply : Send := .error .eagain
  accept : Bool := true
  peer : Bool := true
  resolve : Dest → Bool := fun _ => true
  socket : Bool := true
  aclIp : Bool := false
  aclDomain : Bool := false
  sockname : List Byte := [0, 0, 0, 0, 0, 0]
  rand : Nat := 0
  fresh : Nat → Byte := fun _ => 0

/-- Which `send` call site wrote bytes to a socket. -/
inductive Site where
  | methodSelect
  | response
  | relay
  deriving DecidableEq, Repr

/-- The I/O trace. `hand` is ghost: the relay hands a buffer to the direction that writes
to `fd`, shown before and after the cipher step. -/
inductive Event where
  | recv (fd : Fd) (bytes : List Byte)
  | send (fd : Fd) (site : Site) (bytes : List Byte)
  | hand (fd : Fd) (before after : List Byte)
  | close (fd : Fd)
  deriving DecidableEq, Repr

/-- Undefined behaviour of the C code, where the model stops. -/
inductive Fault where
  | nullDeref
  | dangling
  | outOfBounds
  | badLength
  | divByZero
  | diverge
  deriving DecidableEq, Repr

/-- The cipher collaborator (`enc_ctx_init`, `ss_encrypt`, `ss_decrypt`) over contexts of
type `σ`. A NULL context selects the byte tables of the table method. -/
structure Cipher (σ : Type) where
  init : Bool → σ
  encrypt : σ → List Byte → Option (List Byte × σ)
  decrypt : σ → List Byte → Option (List Byte × σ)
  encTable : Byte → Byte
  decTable : Byte → Byte

/-- The listener context and the process flags the callbacks read; `fastOpen` is the value
`main` leaves in `fast_open` before the loop. -/
structure Config where
  method : Nat
  timeout : Int
  remoteNum : Nat
  acl : Bool
  udprelay : Bool
  fastOpen : Bool

/-- `struct server`; `recvCtx`/`sendCtx` are the addresses of its two `server_ctx` blocks. -/
structure Server (σ : Type) where
  fd : Fd
  buf : Option Buf
  bufIdx : Int
  bufLen : Int
  stage : Nat
  eCtx : Option (Ptr × σ)
  dCtx : Option (Ptr × σ)
  recvCtx : Ptr
  sendCtx : Ptr
  remote : Option Ptr

/-- `struct remote`; `connected` is the flag of its `send_ctx`. -/
structure Remote where
  fd : Fd
  buf : Option Buf
  bufIdx : Int
  bufLen : Int
  direct : Bool
  connected : Bool
  recvCtx : Ptr
  sendCtx : Ptr
  addrInfo : Option Ptr
  server : Option Ptr

/-- The libev watchers inside the ctx blocks, named by the endpoint that owns them. -/
inductive Watcher where
  | serverRecv (p : Ptr)
  | serverSend (p : Ptr)
  | remoteRecv (q : Ptr)
  | remoteSend (q : Ptr)
  | connectTimer (q : Ptr)
  | idleTimer (q : Ptr)
  deriving DecidableEq, Repr

/-- The process: live records, live heap blocks and descriptors, the started watchers, the
`connections` list, `fast_open`, and the I/O trace. Blocks and descriptors come from one
counter, so an address or a descriptor is never handed out twice. -/
@[ext]
structure State (σ : Type) where
  servers : Ptr → Option (Server σ)
  remotes : Ptr → Option Remote
  heap : Ptr → Bool
  fds : Fd → Bool
  next : Nat
  active : Watcher → Bool
  connections : List Ptr
  fastOpen : Bool
  trace : List Event

/-- The process as `main` enters `ev_run`. -/
def initial (fastOpen : Bool) : State σ :=
  ⟨fun _ => none, fun _ => none, fun _ => false, fun _ => false, 0, fun _ => false, [], fastOpen, []⟩

end Shadowsocks.Local
