import Mathlib.Data.List.Basic

namespace HyperswarmRs
set_option autoImplicit true

/-- Addresses compare by all their fields, as `std::net::SocketAddr` does. -/
inductive SocketAddr where
  | v4 (ip : BitVec 32) (port : UInt16)
  | v6 (ip : BitVec 128) (port : UInt16) (flowinfo scopeId : UInt32)
  deriving DecidableEq, Repr

def SocketAddr.port : SocketAddr → UInt16
  | .v4 _ port | .v6 _ port _ _ => port

def loopback (port : UInt16) : SocketAddr := .v4 0x7f000001#32 port

/-- The error kinds the crate builds itself, and those of the operating system by number. -/
inductive ErrorKind where
  | invalidInput
  | other
  | os (code : Nat)
  deriving DecidableEq, Repr

structure IoError where
  kind : ErrorKind
  message : String
  deriving DecidableEq, Repr

abbrev IoResult (α : Type) : Type := Except IoError α

end HyperswarmRs
