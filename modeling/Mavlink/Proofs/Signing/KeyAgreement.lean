import Mathlib.Data.List.Induction
import Mavlink.Proofs.Wire.FrameSpelling
import Mavlink.Signing.Assembly
import Mavlink.Signing.Verification

/-!
# The keys of two ends

What one end signs with its main key the other end verifies with the key that it has for the link
that the signature names.  Both keys are settled by calls, made in any number and nearly any order
while the signers were assembled, and the last one that speaks of a link counts: adding the main
link again changes the main key, and a link that was never spoken of is verified with that key.

What is signed is the frame up to its checksum.  The receiver has only the parts that were decoded
and spells them again, so the frame that it verifies has to be the frame that was built.

* `SignerCall.Complete` --- the calls that make a signer;
* `Signer.exists_assemble` --- its keys, told from the calls;
* `Frame.eq_of_decode_toBytes` --- nothing but the frame itself is decoded from its bytes;
* `Signer.verifies_assembled` --- what is signed at one end is verified at the other.
-/

namespace Mavlink

/-! ## What calls say -/

namespace SignerCall

/-- The main link that is given. -/
def mainLink? : SignerCall → Option UInt8
  | .link l => some l
  | _ => none

/-- The main key that is given. -/
def mainKey? : SignerCall → Option SecretKey
  | .key k => some k
  | _ => none

/-- The link that is added, with its key. -/
def added? : SignerCall → Option (UInt8 × SecretKey)
  | .addLink l k => some (l, k)
  | _ => none

/-- The main links that calls give. -/
def mainLinks (calls : List SignerCall) : List UInt8 := calls.filterMap mainLink?

/-- The main keys that calls give. -/
def mainKeys (calls : List SignerCall) : List SecretKey := calls.filterMap mainKey?

/-- The links that calls add, with their keys. -/
def added (calls : List SignerCall) : List (UInt8 × SecretKey) := calls.filterMap added?

/-- The last key of a link among pairs of a link and a key. -/
def lastOf (pairs : List (UInt8 × SecretKey)) (link : UInt8) : Option SecretKey :=
  (pairs.filter (·.1 = link)).getLast?.map (·.2)

/-- The last key that is given for a link, the main key for the main link included. -/
def lastKey? (calls : List SignerCall) (link : UInt8) : Option SecretKey :=
  lastOf ((mainLinks calls).zip (mainKeys calls) ++ added calls) link

/-- The key that verifies a link: the last one that is given for it or, if there is none, the
last one that is given for the main link. -/
def keyFor? (calls : List SignerCall) (link : UInt8) : Option SecretKey :=
  lastKey? calls link <|> (mainLinks calls).head?.bind (lastKey? calls)

/-- Calls that can be made one after another. -/
structure Legal (calls : List SignerCall) : Prop where
  link : (mainLinks calls).length ≤ 1
  key : (mainKeys calls).length ≤ 1
  added : ∀ before link key after, calls = before ++ .addLink link key :: after →
    mainLinks before ≠ [] ∧ mainKeys before ≠ []

/-- Calls that can be made one after another, and after which the signer can be had. -/
structure Complete (calls : List SignerCall) : Prop extends Legal calls where
  hasLink : mainLinks calls ≠ []
  hasKey : mainKeys calls ≠ []

section Keys

variable (link : UInt8) (key : SecretKey) (pairs : List (UInt8 × SecretKey)) (other : UInt8)

theorem lastOf_concat : lastOf (pairs ++ [(link, key)]) other
    = if other = link then some key else lastOf pairs other := by
  unfold lastOf
  by_cases same : other = link
  · simp [List.filter_append, same]
  · simp [List.filter_append, same, Ne.symm same]

theorem lastOf_cons : lastOf ((link, key) :: pairs) other
    = if other = link then some ((lastOf pairs other).getD key) else lastOf pairs other := by
  unfold lastOf
  by_cases same : other = link
  · subst same
    rw [List.filter_cons_of_pos (by simp), List.getLast?_cons, if_pos rfl]
    cases (pairs.filter (·.1 = other)).getLast? <;> rfl
  · rw [List.filter_cons_of_neg (by simp [Ne.symm same]), if_neg same]

end Keys

section Calls

variable {calls : List SignerCall} {c : SignerCall}

theorem mainLinks_concat : mainLinks (calls ++ [c]) = mainLinks calls ++ c.mainLink?.toList := by
  rw [mainLinks, List.filterMap_append, List.filterMap_cons]
  cases c <;> rfl

theorem mainKeys_concat : mainKeys (calls ++ [c]) = mainKeys calls ++ c.mainKey?.toList := by
  rw [mainKeys, List.filterMap_append, List.filterMap_cons]
  cases c <;> rfl

theorem added_concat : added (calls ++ [c]) = added calls ++ c.added?.toList := by
  rw [added, List.filterMap_append, List.filterMap_cons]
  cases c <;> rfl

theorem Legal.of_concat (h : Legal (calls ++ [c])) : Legal calls := by
  have link := h.link
  have key := h.key
  rw [mainLinks_concat, List.length_append] at link
  rw [mainKeys_concat, List.length_append] at key
  refine ⟨by omega, by omega, fun before link key after split => ?_⟩
  exact h.added before link key (after ++ [c]) (by rw [split]; simp)

/-- The main link is not given twice. -/
theorem Legal.mainLinks_eq_nil {link : UInt8} (h : Legal (calls ++ [.link link])) :
    mainLinks calls = [] := by
  have once := h.link
  rw [mainLinks_concat, List.length_append] at once
  exact List.eq_nil_of_length_eq_zero (Nat.le_zero.1 (Nat.le_of_succ_le_succ once))

/-- The main key is not given twice. -/
theorem Legal.mainKeys_eq_nil {key : SecretKey} (h : Legal (calls ++ [.key key])) :
    mainKeys calls = [] := by
  have once := h.key
  rw [mainKeys_concat, List.length_append] at once
  exact List.eq_nil_of_length_eq_zero (Nat.le_zero.1 (Nat.le_of_succ_le_succ once))

/-- No link is added before the main link and the main key are given. -/
theorem Legal.added_eq_nil (h : Legal calls) (early : mainLinks calls = [] ∨ mainKeys calls = []) :
    SignerCall.added calls = [] := by
  refine List.filterMap_eq_nil_iff.2 fun c made => ?_
  cases c with
  | addLink link key =>
    obtain ⟨before, after, split⟩ := List.append_of_mem made
    obtain ⟨links, keys⟩ := h.added before link key after split
    rw [split, mainLinks, mainKeys, List.filterMap_append, List.filterMap_append] at early
    rcases early with none_given | none_given
    · exact absurd (List.append_eq_nil_iff.1 none_given).1 links
    · exact absurd (List.append_eq_nil_iff.1 none_given).1 keys
  | link | key | incoming | outgoing | exempting => rfl

end Calls
end SignerCall

/-! ## What is assembled -/

namespace SignerDraft

open SignerCall

variable {calls : List SignerCall} {d : SignerDraft} {c : SignerCall}

/-- What is made of main links and keys that are given, and of links that are added. -/
structure Made (links : List UInt8) (keys : List SecretKey) (added : List (UInt8 × SecretKey))
    (d : SignerDraft) : Prop where
  link : d.link = links.head?
  key : d.key = keys.head?.map fun key => (d.link.bind (lastOf added)).getD key
  others : ∀ link, d.links.find? link = lastOf added link

/-- A call that can be made is made. -/
theorem Made.call (made : Made (mainLinks calls) (mainKeys calls) (added calls) d)
    (legal : Legal (calls ++ [c])) :
    ∃ d', d.call c = some d' ∧
      Made (mainLinks (calls ++ [c])) (mainKeys (calls ++ [c])) (added (calls ++ [c])) d' := by
  have before := legal.of_concat
  obtain ⟨link, key, others⟩ := made
  rw [mainLinks_concat, mainKeys_concat, added_concat]
  cases c with
  | link l =>
    have first := legal.mainLinks_eq_nil
    rw [before.added_eq_nil (.inl first)] at key others ⊢
    rw [first, List.head?_nil] at link
    rw [link] at key
    rw [first]
    refine ⟨{ d with link := some l }, by simp [SignerDraft.call, link], rfl, ?_, others⟩
    rw [key]
    simp [mainKey?, added?, lastOf]
  | key k =>
    have first := legal.mainKeys_eq_nil
    rw [before.added_eq_nil (.inr first)] at others ⊢
    rw [first, List.head?_nil, Option.map_none] at key
    rw [first]
    refine ⟨{ d with key := some k }, by simp [SignerDraft.call, key], ?_, ?_, others⟩
    · simpa [mainLink?] using link
    · cases d.link <;> rfl
  | addLink l k =>
    obtain ⟨links, keys⟩ := legal.added calls l k [] rfl
    obtain ⟨main, _, hlink⟩ := List.exists_cons_of_ne_nil links
    obtain ⟨first, _, hkey⟩ := List.exists_cons_of_ne_nil keys
    rw [hlink, List.head?_cons] at link
    rw [hkey, List.head?_cons, Option.map_some, link, Option.bind_some] at key
    refine ⟨_, if_pos (by simp [link, key]), ?_, ?_, ?_⟩
    · simpa [mainLink?, hlink] using link
    · simp [mainKey?, added?, hkey, link, lastOf_concat, key]
      split <;> rfl
    · intro other
      simp [added?, Dictionary.find?_insert, lastOf_concat, others]
  | incoming policy | outgoing policy | exempting ids =>
    refine ⟨_, rfl, ?_, ?_, ?_⟩
    · simpa [mainLink?] using link
    · simpa [mainKey?, added?] using key
    · simpa [added?] using others

/-- Calls that can be made one after another are made. -/
theorem exists_made (legal : Legal calls) :
    ∃ d, calls.foldlM SignerDraft.call {} = some d ∧
      Made (mainLinks calls) (mainKeys calls) (added calls) d := by
  induction calls using List.reverseRecOn with
  | nil => exact ⟨{}, rfl, rfl, rfl, fun _ => rfl⟩
  | append_singleton calls c ih =>
    obtain ⟨d, run, made⟩ := ih legal.of_concat
    obtain ⟨d', step, made'⟩ := made.call legal
    refine ⟨d', ?_, made'⟩
    rw [List.foldlM_append, run]
    simpa using step

/-- The signer of a draft finds its main key in the table of all links. -/
theorem build_eq {link : UInt8} {key : SecretKey} (hlink : d.link = some link)
    (hkey : d.key = some key) :
    d.build = some ⟨link, key, d.links, d.incoming.getD .standard, d.outgoing.getD .standard,
      d.exempt⟩ := by
  have found : (d.links.insert link key).find? link = some key := by
    rw [Dictionary.find?_insert, if_pos rfl]
  simp only [build, hlink, hkey, found, bind, Option.bind, pure]

end SignerDraft

namespace Signer

open SignerCall

/-- The signer that calls assemble, once they are complete: its main link, its main key, which
stands in the table of all links, and the keys with which it verifies. -/
theorem exists_assemble {calls : List SignerCall} (complete : Complete calls) :
    ∃ s, assemble calls = some s ∧ mainLinks calls = [s.link] ∧
      lastKey? calls s.link = some s.key ∧ s.links.find? s.link = some s.key ∧
      ∀ link, keyFor? calls link = some (s.keyOf link) := by
  obtain ⟨d, run, link, key, others⟩ := SignerDraft.exists_made complete.toLegal
  obtain ⟨main, more, hlink⟩ := List.exists_cons_of_ne_nil complete.hasLink
  obtain ⟨first, others', hkey⟩ := List.exists_cons_of_ne_nil complete.hasKey
  have once : more = [] := by
    have count := complete.link
    rw [hlink] at count
    exact List.eq_nil_of_length_eq_zero (Nat.le_zero.1 (Nat.le_of_succ_le_succ count))
  subst once
  rw [hlink, List.head?_cons] at link
  rw [hkey, List.head?_cons, Option.map_some, link, Option.bind_some] at key
  have last (l : UInt8) : lastKey? calls l =
      if l = main then some ((lastOf (added calls) l).getD first)
      else lastOf (added calls) l := by
    rw [lastKey?, hlink, hkey, List.zip_cons_cons, List.zip_nil_left, List.singleton_append,
      lastOf_cons]
  have built := SignerDraft.build_eq link key
  generalize hs : (⟨main, (lastOf (added calls) main).getD first, d.links, _, _, _⟩ : Signer) = s
    at built
  have assembled : assemble calls = some s := by
    rw [assemble, run]
    exact built
  subst hs
  refine ⟨_, assembled, hlink, ?_, ?_, fun l => ?_⟩
  · rw [last, if_pos rfl]
  · exact (Dictionary.find?_insert ..).trans (if_pos rfl)
  · rw [keyFor?, hlink, last, List.head?_cons, Option.bind_some, last, if_pos rfl]
    by_cases same : l = main
    · simp [keyOf, same]
    · simp [keyOf, same, others]

end Signer

/-! ## What is signed -/

namespace Signer

/-- A frame that was signed with the key that its link has here is verified. -/
theorem verifies_of_keyOf {a b : Signer} {f : Frame} {timestamp : Timestamp}
    (signed : f.signature = some (a.sign f.signedBytes timestamp)) (same : b.keyOf a.link = a.key) :
    b.verifies f = true := by
  simp only [verifies, signed, sign, Signature.calculate, same, decide_true]

/-- What a signer builds that should sign is signed by it. -/
theorem signature_of_build {a : Signer} {routing : Routing} {payload : Payload}
    {fingerprint : UInt8} {timestamp : Timestamp} {f : Frame}
    (signs : a.shouldSign payload.version payload.id = true)
    (built : Frame.build routing payload fingerprint (some a) timestamp = .ok f) :
    f.signature = some (a.sign f.signedBytes timestamp) := by
  have chosen : (some a).filter (·.shouldSign payload.version payload.id) = some a :=
    Option.filter_some_pos signs
  rw [(Frame.routing_of_build built).2.2, chosen, Option.map_some]

open SignerCall

/-- **What is signed at one end is verified at the other.**  Two signers are assembled by any
complete calls.  Both have a main key in the table of their links.  A frame that the first one
should sign is built of every payload that fits, and names its main link; so does the frame that is
decoded from its bytes, whatever follows them, and with a lookup that knows the message it is
decoded.  The second signer verifies the frame, built or decoded, if the key that it was given for
that link, or its main key if it was given none, is the main key of the first one. -/
theorem verifies_assembled {ours theirs : List SignerCall} (complete : Complete ours)
    (complete' : Complete theirs) :
    ∃ a b, assemble ours = some a ∧ assemble theirs = some b ∧
      (mainLinks ours = [a.link] ∧ lastKey? ours a.link = some a.key) ∧
      b.links.find? b.link = some b.key ∧
      ∀ (routing : Routing) (payload : Payload) (fingerprint : UInt8) (timestamp : Timestamp),
        a.shouldSign payload.version payload.id = true →
        (payload.id ≤ 0xFFFFFF → payload.size ≤ 255 →
          ∃ f, Frame.build routing payload fingerprint (some a) timestamp = .ok f) ∧
        ∀ f, Frame.build routing payload fingerprint (some a) timestamp = .ok f →
          (∀ (lookup : Lookup) (r : Bytes), lookup.fingerprint payload.id = some fingerprint →
            (∀ limit, lookup.maxLength payload.id = some limit → payload.size ≤ limit) →
            Frame.decode (f.toBytes ++ r) lookup = .ok f) ∧
          ∀ g, (g = f ∨ ∃ lookup r, Frame.decode (f.toBytes ++ r) lookup = .ok g) →
            g.signature.map (·.link) = some a.link ∧
              (keyFor? theirs a.link = some a.key → b.verifies g = true) := by
  obtain ⟨a, assembled, main, own, -, -⟩ := exists_assemble complete
  obtain ⟨b, assembled', -, -, found, keys⟩ := exists_assemble complete'
  refine ⟨a, b, assembled, assembled', ⟨main, own⟩, found, ?_⟩
  intro routing payload fingerprint timestamp signs
  have version : payload.version = .v2 := by
    have signs := signs
    simp only [shouldSign, Bool.and_eq_true, decide_eq_true_eq] at signs
    exact signs.1.1
  refine ⟨fun known small => ?_, fun f built => ⟨fun lookup r known fits => ?_, fun g same => ?_⟩⟩
  · cases built : Frame.build routing payload fingerprint (some a) timestamp with
    | ok f => exact ⟨f, rfl⟩
    | error e =>
      rcases Frame.build_eq_error_iff.1 built with ⟨large, -⟩ | ⟨-, large, -⟩
      · rw [version] at large
        exact absurd known (Nat.not_le.2 large)
      · exact absurd small (Nat.not_le.2 large)
  · obtain ⟨consistent, rfl, sum⟩ := Frame.of_build built
    rw [consistent.id] at known fits
    exact Frame.decode_eq_ok_iff.2
      ⟨List.prefix_append _ _, consistent, ⟨fingerprint, known, sum⟩, fits⟩
  · obtain rfl : g = f := by
      rcases same with same | ⟨lookup, r, decoded⟩
      · exact same
      · exact Frame.eq_of_decode_toBytes (Frame.of_build built).1 decoded
    have signed := signature_of_build signs built
    refine ⟨by rw [signed]; rfl, fun agreed => verifies_of_keyOf signed ?_⟩
    exact Option.some.inj ((keys a.link).symm.trans agreed)

/-- A heartbeat that is signed on the first link, and verified by a signer whose main link is the
second one and which was given the key of the first one after another key. -/
theorem heartbeat_verified_on_other_link :
    let ours : List SignerCall := [.key (.ofText "main"), .link 1, .outgoing .strict]
    let theirs : List SignerCall := [.link 2, .key (.ofText "other"), .addLink 1 (.ofText "old"),
      .addLink 1 (.ofText "main")]
    Complete ours ∧ Complete theirs ∧ ∃ a b f, assemble ours = some a ∧ assemble theirs = some b ∧
      Frame.build ⟨1, ⟨1, 1⟩, 0⟩ ⟨0, .v2, [0, 0, 0, 0, 6, 8, 0, 4, 3]⟩ 50 (some a) 7 = .ok f ∧
      f.signature.map (·.link) = some 1 ∧ b.verifies f = true := by
  intro ours theirs
  have complete : Complete ours := by
    refine ⟨⟨by decide, by decide, fun before link key after split => ?_⟩, by decide, by decide⟩
    rcases before with _ | ⟨_, _ | ⟨_, _ | ⟨_, before⟩⟩⟩ <;> simp [ours] at split
  have complete' : Complete theirs := by
    refine ⟨⟨by decide, by decide, fun before link key after split => ?_⟩, by decide, by decide⟩
    rcases before with _ | ⟨_, _ | ⟨_, _ | ⟨_, _ | ⟨_, before⟩⟩⟩⟩
    all_goals simp [theirs] at split
    · obtain ⟨rfl, rfl, -⟩ := split
      exact ⟨by decide, by decide⟩
    · obtain ⟨rfl, rfl, rfl, -⟩ := split
      exact ⟨by decide, by decide⟩
  obtain ⟨a, b, assembled, assembled', -, -, frames⟩ := verifies_assembled complete complete'
  have main : a = ⟨1, .ofText "main", ∅, .sign, .strict, ∅⟩ := (Option.some.inj assembled).symm
  subst main
  obtain ⟨built, read⟩ := frames ⟨1, ⟨1, 1⟩, 0⟩ ⟨0, .v2, [0, 0, 0, 0, 6, 8, 0, 4, 3]⟩ 50 7 rfl
  obtain ⟨f, built⟩ := built (by decide) (by decide)
  obtain ⟨link, verified⟩ := (read f built).2 f (.inl rfl)
  exact ⟨complete, complete', _, b, f, assembled, assembled', built, link, verified rfl⟩

end Signer
end Mavlink
