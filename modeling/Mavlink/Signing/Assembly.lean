import Mavlink.Signing.Signer

/-!
# Assembling signers

A signer is assembled call by call.  The main link and the main key are given once each, in
either order, and only then can other links be added; policies and exempt messages can be chosen
at any time, and the last choice counts.

The keys of all links are kept in one table.  The main key is put in last of all, and the signer
that is made looks its main key up there.
-/

namespace Mavlink

/-- What can be said while a signer is assembled. -/
inductive SignerCall where
  | link (link : UInt8)
  | key (key : SecretKey)
  | addLink (link : UInt8) (key : SecretKey)
  | incoming (policy : SigningPolicy)
  | outgoing (policy : SigningPolicy)
  | exempting (ids : List MessageId)

/-- A signer that is being assembled. -/
structure SignerDraft where
  /-- The main link, once it is given. -/
  link : Option UInt8 := none
  /-- The main key, once it is given. -/
  key : Option SecretKey := none
  /-- The keys of the links that were added. -/
  links : Dictionary UInt8 SecretKey := ∅
  incoming : Option SigningPolicy := none
  outgoing : Option SigningPolicy := none
  exempt : Dictionary MessageId Unit := ∅

namespace SignerDraft

/-- The draft after a call.  There is none if the main link or the main key is given twice, or
if a link is added before both are given. -/
def call (d : SignerDraft) : SignerCall → Option SignerDraft
  | .link link => if d.link.isSome then none else some { d with link := some link }
  | .key key => if d.key.isSome then none else some { d with key := some key }
  | .addLink link key =>
    if d.link.isSome && d.key.isSome then
      some { d with
        key := if d.link = some link then some key else d.key
        links := d.links.insert link key }
    else none
  | .incoming policy => some { d with incoming := some policy }
  | .outgoing policy => some { d with outgoing := some policy }
  | .exempting ids =>
    some { d with exempt := Dictionary.ofList (ids.map fun id => (id, ())) }

/-- The signer of a draft.  There is none before the main link and the main key are given, or if
the main key is not found in the table of all links. -/
def build (d : SignerDraft) : Option Signer := do
  let link ← d.link
  let key ← d.key
  let main ← (d.links.insert link key).find? link
  return {
    link
    key := main
    others := d.links
    incoming := d.incoming.getD .standard
    outgoing := d.outgoing.getD .standard
    exempt := d.exempt }

end SignerDraft

/-- The signer that calls assemble. -/
def Signer.assemble (calls : List SignerCall) : Option Signer := do
  let draft ← calls.foldlM SignerDraft.call {}
  draft.build

end Mavlink
