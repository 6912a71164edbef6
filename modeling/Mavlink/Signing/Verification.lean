import Mavlink.Wire.Frame

/-!
# Verifying signatures

The key that verifies a frame is chosen by the link its signature names.
-/

namespace Mavlink.Signer

/-- Whether a frame carries a signature and it is right. -/
def verifies (s : Signer) (f : Frame) : Bool :=
  match f.signature with
  | none => false
  | some signature =>
    (Signature.calculate (s.keyOf signature.link) f.signedBytes signature.link
      signature.timestamp).value = signature.value

/-- Whether a frame that comes in is accepted under the policy.  An exempt message
always is. -/
def accepts (s : Signer) (f : Frame) : Bool :=
  if s.exempts f.messageId then true
  else match s.incoming with
    | .proxy => true
    | .sign => f.signature.isNone || s.verifies f
    | .strict => f.signature.isSome && s.verifies f

end Mavlink.Signer
