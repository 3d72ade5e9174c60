import Msopcom.KeyedList
import Msopcom.Runs
import Msopcom.Words

set_option autoImplicit false

/-!
# Shared memory between processes

The hooks of the calls that export, import and close a key of shared memory. They keep one map
of the keys that this process has a part in, and send the server a record of each call.
-/
namespace Msopcom

/-- A string of C, without the zero byte that ends it. -/
structure CString where
  bytes : List UInt8
  noNul : (0 : UInt8) ∉ bytes
  deriving DecidableEq

/-- `str` has the bytes before the zero byte, if not more. -/
def getValidLength (str : List UInt8) (maxLen : UInt64) : UInt64 :=
  let count := UInt64.ofNat ((str.take maxLen.toNat).findIdx (· == 0))
  if count < maxLen - 1 then count else maxLen - 1

/-- The record has the name in a buffer of 64 bytes. -/
def nameSize : UInt64 := 64

namespace IPCMemManager

inductive IPCMemActor
  | SHARER
  | SHAREE
  deriving DecidableEq, Repr

structure IPCMemInfo where
  actor : IPCMemActor
  devPtr : UInt64
  deriving DecidableEq, Repr

inductive IPCMemRecord
  | setInfo (addr size : UInt64) (name : List UInt8)
  | destroyInfo (name : List UInt8)
  | mapInfo (addr : UInt64) (name : List UInt8)
  | unmapInfo (addr : UInt64)
  deriving DecidableEq, Repr

def ACL_ERROR_NONE : Int32 := 0

end IPCMemManager

structure IPCMemManager where
  ipcMemInfoMap : AList fun _ : List UInt8 => IPCMemManager.IPCMemInfo := ∅

namespace IPCMemManager

/-- `std::map::insert`, which leaves the entry of a key that is there. -/
def insert (key : List UInt8) (info : IPCMemInfo) (m : IPCMemManager) : IPCMemManager :=
  if (m.ipcMemInfoMap.lookup key).isSome then m else ⟨m.ipcMemInfoMap.insert key info⟩

def erase (key : List UInt8) (m : IPCMemManager) : IPCMemManager :=
  ⟨m.ipcMemInfoMap.erase key⟩

/-- What a hook returns, leaves and sends. -/
structure Posted where
  ret : Int32
  manager : IPCMemManager
  record : Option IPCMemRecord := none

/-- The key as the hooks read it. -/
def validName (key : CString) (maxLen : UInt64) : List UInt8 :=
  key.bytes.take (getValidLength key.bytes maxLen).toNat

def getExportKeyPost (isSanitizer : Bool) (devPtr size : UInt64) (key : Option CString)
    (len : UInt64) (ret : Int32) (m : IPCMemManager) : Posted :=
  if ret ≠ ACL_ERROR_NONE then { ret, manager := m }
  else if isSanitizer then
    match key with
    | none => { ret, manager := m }
    | some key_ =>
      let name := validName key_ (if len < nameSize then len else nameSize)
      { ret
        manager := m.insert name ⟨.SHARER, devPtr⟩
        record := some (.setInfo devPtr size name) }
  else { ret, manager := m }

/-- `devPtr` is what is stored at the pointer when the call is back. -/
def importByKeyPost (isSanitizer : Bool) (devPtr : Option UInt64) (key : Option CString)
    (ret : Int32) (m : IPCMemManager) : Posted :=
  if isSanitizer then
    match key with
    | none => { ret, manager := m }
    | some key_ =>
      let name := validName key_ nameSize
      match devPtr with
      | none => { ret, manager := m }
      | some addr =>
        { ret
          manager := m.insert name ⟨.SHAREE, addr⟩
          record := some (.mapInfo addr name) }
  else { ret, manager := m }

/-- The sharer names the key that it destroys, the others the address that they unmap. -/
def closeRecord (name : List UInt8) (info : IPCMemInfo) : IPCMemRecord :=
  match info.actor with
  | .SHARER => .destroyInfo name
  | .SHAREE => .unmapInfo info.devPtr

def closePost (isSanitizer : Bool) (key : Option CString) (ret : Int32) (m : IPCMemManager) :
    Posted :=
  if isSanitizer then
    match key with
    | none => { ret, manager := m }
    | some key_ =>
      let name := validName key_ nameSize
      match m.ipcMemInfoMap.lookup name with
      | none => { ret, manager := m }
      | some info =>
        { ret
          manager := m.erase name
          record := some (closeRecord name info) }
  else { ret, manager := m }

/-! ## Runs of a sanitized process -/

inductive Request
  | getExportKey (devPtr size : UInt64) (key : Option CString) (len : UInt64)
  | importByKey (devPtr : Option UInt64) (key : Option CString)
  | close (key : Option CString)

structure Call where
  request : Request
  ret : Int32

def post (c : Call) (m : IPCMemManager) : Posted :=
  match c.request with
  | .getExportKey devPtr size key len => getExportKeyPost true devPtr size key len c.ret m
  | .importByKey devPtr key => importByKeyPost true devPtr key c.ret m
  | .close key => closePost true key c.ret m

/-- The shares of the process after a call that succeeds. -/
def settle (r : Request) (live : AList fun _ : List UInt8 => IPCMemInfo) :
    AList fun _ : List UInt8 => IPCMemInfo :=
  match r with
  | .getExportKey devPtr _ (some key) _ => live.insert key.bytes ⟨.SHARER, devPtr⟩
  | .importByKey (some addr) (some key) => live.insert key.bytes ⟨.SHAREE, addr⟩
  | .close (some key) => live.erase key.bytes
  | _ => live

/-- A call, the share that its key stood for, and the record that was sent for it. -/
structure Entry where
  call : Call
  share : Option IPCMemInfo
  record : Option IPCMemRecord

/-- A process, the shares that the calls have left it with, and what was sent for each call. -/
structure Process where
  manager : IPCMemManager := {}
  live : AList fun _ : List UInt8 => IPCMemInfo := ∅
  log : List Entry := []

def start : Process := {}

def Request.key : Request → Option CString
  | .getExportKey _ _ key _ => key
  | .importByKey _ key => key
  | .close key => key

def step (p : Process) (c : Call) : Process where
  manager := (post c p.manager).manager
  live := if c.ret = ACL_ERROR_NONE then settle c.request p.live else p.live
  log := p.log ++ [⟨c, c.request.key.bind fun key => p.live.lookup key.bytes,
    (post c p.manager).record⟩]

/-- The record that a successful call has to send. -/
def Describes (share : Option IPCMemInfo) (record : IPCMemRecord) : Request → Prop
  | .getExportKey devPtr size key _ => ∃ k ∈ key, record = .setInfo devPtr size k.bytes
  | .importByKey devPtr key => ∃ addr ∈ devPtr, ∃ k ∈ key, record = .mapInfo addr k.bytes
  | .close key =>
    match share with
    | some ⟨.SHARER, _⟩ => ∃ k ∈ key, record = .destroyInfo k.bytes
    | some ⟨.SHAREE, addr⟩ => record = .unmapInfo addr
    | none => (∃ name, record = .destroyInfo name) ∨ ∃ addr, record = .unmapInfo addr

def Reported (e : Entry) : Prop :=
  if e.call.ret = ACL_ERROR_NONE then ∃ r ∈ e.record, Describes e.share r e.call.request
  else e.record = none

/-- The map has the shares of the process, and each call has been reported as it ended. -/
structure Faithful (p : Process) : Prop where
  map : ∀ key, p.manager.ipcMemInfoMap.lookup key = p.live.lookup key
  reported : ∀ e ∈ p.log, Reported e

/-- The name of a record has room for the key. -/
def Fits (key : CString) (maxLen : UInt64) : Prop :=
  key.bytes.length < maxLen.toNat ∨ key.bytes = []

/-- What the hooks rely on for a call that succeeds. -/
def Expected (m : IPCMemManager) : Request → Prop
  | .getExportKey devPtr _ key len =>
    ∃ k ∈ key, Fits k (if len < nameSize then len else nameSize) ∧
      ∀ info ∈ m.ipcMemInfoMap.lookup k.bytes, info = ⟨.SHARER, devPtr⟩
  | .importByKey devPtr key =>
    ∃ addr ∈ devPtr, ∃ k ∈ key, Fits k nameSize ∧
      ∀ info ∈ m.ipcMemInfoMap.lookup k.bytes, info = ⟨.SHAREE, addr⟩
  | .close key => ∃ k ∈ key, Fits k nameSize ∧ (m.ipcMemInfoMap.lookup k.bytes).isSome

/-- The calls that have no effect in the hooks when they fail. -/
def Harmless (m : IPCMemManager) : Request → Prop
  | .getExportKey _ _ _ _ => True
  | .importByKey devPtr key => devPtr = none ∨ key = none
  | .close key => ∀ k ∈ key, m.ipcMemInfoMap.lookup (validName k nameSize) = none

def Proper (p : Process) (c : Call) : Prop :=
  if c.ret = ACL_ERROR_NONE then Expected p.manager c.request else Harmless p.manager c.request

end IPCMemManager
end Msopcom
