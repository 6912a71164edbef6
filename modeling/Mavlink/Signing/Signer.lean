import Mavlink.Dictionary
import Mavlink.Signing.Signature
import Mavlink.Wire.Version

/-!
# Signers

A signer signs with one main key on one main link.  Other links only verify; a
link that the signer does not know is verified with the main key.
-/

namespace Mavlink

/-- What is done about signatures in one direction. -/
inductive SigningPolicy where
  /-- Frames pass as they are. -/
  | proxy
  /-- Frames are signed; signatures are verified, but need not be there. -/
  | sign
  /-- As before, but a frame without a signature is refused. -/
  | strict
  deriving DecidableEq, Inhabited, Repr

namespace SigningPolicy

/-- The policy if none is chosen. -/
def standard : SigningPolicy := sign

/-- The name of a policy. -/
def name : SigningPolicy → String
  | proxy => "proxy"
  | sign => "sign"
  | strict => "strict"

/-- The policy of a name. -/
def ofName? (s : String) : Option SigningPolicy := [proxy, sign, strict].find? (·.name = s)

end SigningPolicy

/-- Keys and policies. -/
structure Signer where
  /-- The main link. -/
  link : UInt8
  /-- The main key. -/
  key : SecretKey
  /-- The keys of other links. -/
  others : Dictionary UInt8 SecretKey
  incoming : SigningPolicy
  outgoing : SigningPolicy
  /-- The messages that are neither signed nor verified, in increasing order. -/
  exempt : Dictionary MessageId Unit

namespace Signer

/-- A signer with one link. -/
def ofKey (link : UInt8) (key : SecretKey) : Signer :=
  ⟨link, key, ∅, .standard, .standard, ∅⟩

/-- Exempts messages. -/
def exempting (s : Signer) (ids : List MessageId) : Signer :=
  { s with exempt := Dictionary.ofList (ids.map fun id => (id, ())) }

/-- The key that verifies a link. -/
def keyOf (s : Signer) (link : UInt8) : SecretKey :=
  if link = s.link then s.key else (s.others.find? link).getD s.key

/-- Every link with its key. -/
def links (s : Signer) : Dictionary UInt8 SecretKey := s.others.insert s.link s.key

/-- Whether a message is exempt. -/
def exempts (s : Signer) (id : MessageId) : Bool := s.exempt.contains id

/-- Whether a frame that goes out is signed. -/
def shouldSign (s : Signer) (version : Version) (id : MessageId) : Bool :=
  version = .v2 && s.outgoing ≠ .proxy && !s.exempts id

/-- Signs bytes with the main key. -/
def sign (s : Signer) (signed : Bytes) (timestamp : Timestamp) : Signature :=
  .calculate s.key signed s.link timestamp

end Signer
end Mavlink
