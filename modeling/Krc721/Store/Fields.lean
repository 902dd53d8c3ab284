import Krc721.Store.Bytes

/-! Cutting the fields of a record out of its bytes, from the front or from the end, and
reading big-endian integers back. `none` where the bytes have another length. -/

set_option autoImplicit false

namespace OrderedStore

/-- The number whose big-endian base 256 digits are given. -/
def ofBeBytes (bytes : List ℕ) : ℕ := bytes.foldl (fun value byte => value * 256 + byte) 0

/-- The first `width` bytes and the rest. -/
def splitAt? (bytes : List ℕ) (width : ℕ) : Option (List ℕ × List ℕ) :=
  if width ≤ bytes.length then some (bytes.splitAt width) else none

/-- All but the last `width` bytes, and those. -/
def splitEnd? (bytes : List ℕ) (width : ℕ) : Option (List ℕ × List ℕ) :=
  if width ≤ bytes.length then some (bytes.splitAt (bytes.length - width)) else none

/-- An integer that takes exactly `width` bytes. -/
def fromBeBytes (width : ℕ) (bytes : List ℕ) : Option ℕ :=
  if bytes.length = width then some (ofBeBytes bytes) else none

theorem foldl_toBeBytes {width : ℕ} (positive : 0 < width) (value front : ℕ) :
    (toBeBytes width value).foldl (fun value byte => value * 256 + byte) front =
      front * 256 ^ width + value := by
  induction width, value using toBeBytes.induct generalizing front with
  | case1 => simp at positive
  | case2 value => simp [toBeBytes]
  | case3 width value ih =>
      rw [toBeBytes, List.foldl_cons, ih (Nat.succ_pos width)]
      calc (front * 256 + value / 256 ^ (width + 1)) * 256 ^ (width + 1) +
            value % 256 ^ (width + 1)
        _ = front * 256 ^ (width + 2) + (value / 256 ^ (width + 1) * 256 ^ (width + 1) +
            value % 256 ^ (width + 1)) := by ring
        _ = front * 256 ^ (width + 2) + value := by rw [Nat.div_add_mod']

theorem ofBeBytes_toBeBytes {width : ℕ} (positive : 0 < width) (value : ℕ) :
    ofBeBytes (toBeBytes width value) = value := by
  rw [ofBeBytes, foldl_toBeBytes positive, zero_mul, zero_add]

@[simp] theorem fromBeBytes_toBeBytes {width : ℕ} [NeZero width] (value : ℕ) :
    fromBeBytes width (toBeBytes width value) = some value := by
  rw [fromBeBytes, if_pos (length_toBeBytes width value),
    ofBeBytes_toBeBytes (Nat.pos_of_neZero width)]

section Split

variable {front rest : List ℕ} {width : ℕ}

theorem splitAt?_append (length : front.length = width) :
    splitAt? (front ++ rest) width = some (front, rest) := by
  subst length
  rw [splitAt?, if_pos (by simp), List.splitAt_eq, List.take_left, List.drop_left]

theorem splitEnd?_append (length : rest.length = width) :
    splitEnd? (front ++ rest) width = some (front, rest) := by
  subst length
  rw [splitEnd?, if_pos (by simp), List.length_append, Nat.add_sub_cancel_right,
    List.splitAt_eq, List.take_left, List.drop_left]

@[simp] theorem splitAt?_toBeBytes_append (value : ℕ) :
    splitAt? (toBeBytes width value ++ rest) width = some (toBeBytes width value, rest) :=
  splitAt?_append (length_toBeBytes width value)

@[simp] theorem splitEnd?_append_toBeBytes (value : ℕ) :
    splitEnd? (front ++ toBeBytes width value) width = some (front, toBeBytes width value) :=
  splitEnd?_append (length_toBeBytes width value)

end Split

end OrderedStore
