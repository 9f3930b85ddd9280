import Availability.Http.Fault
import Availability.Http.Status
import Availability.Url.Address

/-!
# Requests and replies

A request is made of the text of an address, of headers and of a body, if these can make one. What
comes back is a reply with a status and a body, or nothing.

* `Request.make_ok_iff`: a request can be made exactly of an address that can be read, has a host
  and one of the two schemes of the protocol, and of headers without controls.
-/

namespace Availability.Http

open Url (Address)

/-- A request. -/
structure Request where
  method : String
  address : Address
  headers : List (String × Bytes)
  body : Bytes
  deriving DecidableEq, Repr

/-- What comes back. -/
inductive Reply where
  /-- Nothing, or nothing that is a reply. -/
  | none
  /-- A reply. Its body is missing if it breaks off. -/
  | response (status : Nat) (body : Option Bytes)
  deriving DecidableEq, Repr, Inhabited

/-- Whether a byte may stand in the value of a header. -/
def isHeaderByte (b : UInt8) : Bool := b = 9 || (32 ≤ b && b != 127)

/-- Whether the scheme of an address is one of the protocol. -/
def isWeb (a : Address) : Bool := a.scheme == "http" || a.scheme == "https"

namespace Request

/-- Makes a request. -/
def make (method url : String) (headers : List (String × Bytes)) (body : Bytes) :
    Except Fault Request :=
  match Address.ofText? url with
  | none => .error (.unbuildable none)
  | some a =>
    if a.host.isNone then .error (.unbuildable (some a.text))
    else if !headers.all fun h => h.2.all isHeaderByte then .error (.unbuildable none)
    else if !isWeb a then .error (.unbuildable (some a.text))
    else .ok ⟨method, a, headers, body⟩

theorem make_ok_iff (method url : String) (headers : List (String × Bytes)) (body : Bytes)
    (r : Request) :
    make method url headers body = .ok r ↔
      ∃ a, Address.ofText? url = some a ∧ a.host.isSome = true
        ∧ (headers.all fun h => h.2.all isHeaderByte) = true ∧ isWeb a = true
        ∧ r = ⟨method, a, headers, body⟩ := by
  unfold make
  split
  · rename_i h
    simp [h]
  · rename_i a h
    simp only [h, Option.some.injEq, exists_eq_left']
    cases hh : a.host <;> cases hw : isWeb a <;>
      cases hb : (headers.all fun h => h.2.all isHeaderByte) <;> simp [eq_comm]

/-- The fault of a request that was not answered. -/
def unanswered (r : Request) : Fault := .unanswered r.address.text

end Request

/-- An address without slashes at its end, which paths are added to. -/
def baseOf (url : String) : String :=
  String.ofList ((url.toList.reverse.dropWhile (· == '/')).reverse)

end Availability.Http
