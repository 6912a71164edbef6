import Mavlink.Signing.Signature

/-!
# The spelling of words

Bytes of the right count spell exactly one number, so the words of a frame are read
back from their bytes and written back to them: the two bytes of a checksum, the six
bytes of a timestamp or a digest, and the thirteen bytes of a signature.
-/

namespace Mavlink

theorem Bytes.little_ofLittle_of_length {w : Nat} {b : Bytes} (h : b.length = w) :
    little w (ofLittle b) = b := by
  subst h
  exact little_ofLittle b

theorem Bytes.ofLittle_lt_of_length {w : Nat} {b : Bytes} (h : b.length = w) :
    ofLittle b < Nat.pow 256 w := by
  subst h
  exact ofLittle_lt b

theorem Word48.bound : Nat.pow 256 6 = 0x1000000000000 := by decide

theorem Word48.ofBytes_append {w : Word48} {r : Bytes} : Word48.ofBytes (w.toBytes ++ r) = w := by
  have hw : w.val < Nat.pow 256 6 := by rw [bound]; exact w.isLt
  have htake : (w.toBytes ++ r).take 6 = w.toBytes := List.take_left' (by simp [toBytes])
  apply Fin.ext
  rw [ofBytes, htake, toBytes, Bytes.ofLittle_little_of_lt hw]
  exact Nat.mod_eq_of_lt w.isLt

theorem Word48.toBytes_ofBytes {b : Bytes} (h : 6 ≤ b.length) :
    (Word48.ofBytes b).toBytes = b.take 6 := by
  have hlen : (b.take 6).length = 6 := by rw [List.length_take]; omega
  have hlt : Bytes.ofLittle (b.take 6) < 0x1000000000000 := by
    rw [← bound]
    exact Bytes.ofLittle_lt_of_length hlen
  have hval : (Word48.ofBytes b).val = Bytes.ofLittle (b.take 6) := Nat.mod_eq_of_lt hlt
  rw [toBytes, hval, Bytes.little_ofLittle_of_length hlen]

theorem Signature.ofBytes_toBytes (s : Signature) : ofBytes s.toBytes = s := by
  obtain ⟨link, timestamp, value⟩ := s
  have htime : Word48.ofBytes (timestamp.toBytes ++ value.toBytes) = timestamp :=
    Word48.ofBytes_append
  have hvalue : Word48.ofBytes (value.toBytes ++ []) = value := Word48.ofBytes_append
  have hdrop : (timestamp.toBytes ++ value.toBytes).drop 6 = value.toBytes :=
    List.drop_left' (by simp [Word48.toBytes])
  rw [List.append_nil] at hvalue
  simp [ofBytes, toBytes, htime, hvalue, hdrop]

theorem Signature.toBytes_ofBytes {b : Bytes} (h : b.length = 13) :
    (ofBytes b).toBytes = b := by
  obtain ⟨link, r, rfl⟩ : ∃ link r, b = link :: r := List.exists_cons_of_length_eq_add_one h
  rw [List.length_cons] at h
  have htime : (Word48.ofBytes r).toBytes = r.take 6 := Word48.toBytes_ofBytes (by omega)
  have hvalue : (Word48.ofBytes (r.drop 6)).toBytes = (r.drop 6).take 6 :=
    Word48.toBytes_ofBytes (by rw [List.length_drop]; omega)
  have hall : (r.drop 6).take 6 = r.drop 6 :=
    List.take_of_length_le (by rw [List.length_drop]; omega)
  simp [ofBytes, toBytes, htime, hvalue, hall]

theorem Bytes.ofNat_ofLittle_little (c : UInt16) :
    UInt16.ofNat (ofLittle (little 2 c.toNat)) = c := by
  have bound : Nat.pow 256 2 = 65536 := by decide
  rw [Bytes.ofLittle_little_of_lt (by rw [bound]; exact c.toNat_lt), UInt16.ofNat_toNat]

theorem Bytes.little_toNat_ofNat {b : Bytes} (h : b.length = 2) :
    little 2 (UInt16.ofNat (ofLittle b)).toNat = b := by
  have bound : Nat.pow 256 2 = 65536 := by decide
  have hlt : Bytes.ofLittle b < 65536 := by
    rw [← bound]
    exact Bytes.ofLittle_lt_of_length h
  rw [UInt16.toNat_ofNat_of_lt' hlt, Bytes.little_ofLittle_of_length h]

end Mavlink
