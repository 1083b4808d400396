import DocumentProof.Hash.Keccak
import Mathlib.Data.List.GetD

/-!
# The sponge on one number

The 25 lanes of a state as the digits of one number to the base `2 ^ 64`. Every step of the
permutation is arithmetic on this number (`packed_round`), and so is the digest
(`keccak256_eq_packed`). A concrete digest is found by computing with such numbers, which takes a
fraction of a second, where vectors of words take many.
-/

namespace DocumentProof

namespace Keccak

namespace Packed

/-! ## Lanes of a number -/

/-- The number with these digits, least significant first. -/
def pack : List Nat → Nat
  | [] => 0
  | x :: xs => x + UInt64.size * pack xs

def lane (s i : Nat) : Nat := s >>> (64 * i) % UInt64.size

/-- The number of which `f i` is digit `i`. -/
def lanes (n : Nat) (f : Nat → Nat) : Nat := pack ((List.range n).map f)

theorem lane_pack : ∀ {xs : List Nat} (i : Nat), (∀ x ∈ xs, x < UInt64.size) →
    lane (pack xs) i = xs.getD i 0
  | [], i, _ => by simp [pack, lane]
  | x :: xs, i, h => by
    obtain ⟨hx, hxs⟩ := List.forall_mem_cons.mp h
    cases i with
    | zero =>
      rw [lane, pack, Nat.mul_zero, Nat.shiftRight_zero, Nat.add_mul_mod_self_left,
        Nat.mod_eq_of_lt hx, List.getD_cons_zero]
    | succ i =>
      have hdiv : ∀ n, n >>> 64 = n / UInt64.size := fun n => Nat.shiftRight_eq_div_pow n 64
      have hshift : (x + UInt64.size * pack xs) >>> (64 * (i + 1)) = pack xs >>> (64 * i) := by
        rw [Nat.mul_succ, Nat.add_comm (64 * i), Nat.shiftRight_add, hdiv,
          Nat.add_mul_div_left _ _ (by decide), Nat.div_eq_of_lt hx, Nat.zero_add]
      rw [lane, pack, hshift, List.getD_cons_succ]
      exact lane_pack i hxs

/-- The words of a vector as the digits of a number. -/
def packed {n : Nat} (v : Vector UInt64 n) : Nat := pack (v.toList.map (·.toNat))

@[simp] theorem lane_packed {n i : Nat} (v : Vector UInt64 n) (h : i < n) :
    lane (packed v) i = v[i].toNat := by
  have hlt : ∀ x ∈ v.toList.map (·.toNat), x < UInt64.size := by
    intro x hx
    obtain ⟨w, -, rfl⟩ := List.mem_map.mp hx
    exact w.toNat_lt
  have hi : i < (v.toList.map (·.toNat)).length := by simpa using h
  rw [packed, lane_pack i hlt, List.getD_eq_getElem _ _ hi, List.getElem_map, Vector.getElem_toList]

theorem packed_eq_lanes {n : Nat} {v : Vector UInt64 n} {f : Nat → Nat}
    (h : ∀ i (hi : i < n), v[i].toNat = f i) : packed v = lanes n f := by
  refine congrArg pack (List.ext_getElem (by simp) fun i hi _ => ?_)
  have hn : i < n := by simpa using hi
  rw [List.getElem_map, List.getElem_map, Vector.getElem_toList, List.getElem_range, h i hn]

/-! ## The permutation -/

def turn (x n : Nat) : Nat :=
  x <<< (n % UInt64.size % 64) % UInt64.size ||| x >>> ((64 - n) % UInt64.size % 64)

def parities (s : Nat) : Nat :=
  lanes 5 fun x => lane s (x % 5) ^^^ lane s (x % 5 + 5) ^^^ lane s (x % 5 + 10)
    ^^^ lane s (x % 5 + 15) ^^^ lane s (x % 5 + 20)

def mixed (s : Nat) : Nat :=
  lanes 5 fun x => lane (parities s) ((x + 4) % 5) ^^^ turn (lane (parities s) ((x + 1) % 5)) 1

def theta (s : Nat) : Nat := lanes 25 fun i => lane s i ^^^ lane (mixed s) (i % 5)

def rhoPi (s : Nat) : Nat :=
  lanes 25 fun i =>
    let source := (i % 5 + 3 * (i / 5)) % 5 + 5 * (i % 5)
    turn (lane s source) (rotations.toList.getD source 0)

def chi (s : Nat) : Nat :=
  lanes 25 fun i =>
    lane s i ^^^ (UInt64.size - 1 - lane s ((i % 5 + 1) % 5 + 5 * (i / 5))
      &&& lane s ((i % 5 + 2) % 5 + 5 * (i / 5)))

def round (s : Nat) (constant : UInt64) : Nat :=
  let s := chi (rhoPi (theta s))
  lanes 25 fun i => if i = 0 then lane s i ^^^ constant.toNat else lane s i

theorem toNat_rotateLeft (x : UInt64) (n : Nat) : (rotateLeft x n).toNat = turn x.toNat n := by
  unfold rotateLeft
  rw [UInt64.toNat_or, UInt64.toNat_shiftLeft, UInt64.toNat_shiftRight, UInt64.toNat_ofNat',
    UInt64.toNat_ofNat']
  rfl

theorem packed_parities (s : State) :
    packed (Vector.ofFn fun x : Fin 5 => parity s x) = parities (packed s) := by
  refine packed_eq_lanes fun x hx => ?_
  have hmod : x % 5 < 5 := Nat.mod_lt x (by decide)
  simp only [Vector.getElem_ofFn, parity, UInt64.toNat_xor]
  rw [lane_packed s, lane_packed s, lane_packed s, lane_packed s, lane_packed s]

theorem packed_theta (s : State) : packed (Keccak.theta s) = theta (packed s) := by
  have hmixed : packed (Vector.ofFn fun x : Fin 5 =>
      (Vector.ofFn fun x : Fin 5 => parity s x)[(x.val + 4) % 5] ^^^
        Keccak.rotateLeft (Vector.ofFn fun x : Fin 5 => parity s x)[(x.val + 1) % 5] 1) =
          mixed (packed s) := by
    refine packed_eq_lanes fun x hx => ?_
    rw [Vector.getElem_ofFn, UInt64.toNat_xor, toNat_rotateLeft, ← packed_parities, lane_packed,
      lane_packed]
  refine packed_eq_lanes fun i hi => ?_
  have hmod : i % 5 < 5 := Nat.mod_lt i (by decide)
  unfold Keccak.theta
  rw [Vector.getElem_ofFn, UInt64.toNat_xor, ← hmixed, lane_packed s hi, lane_packed _ hmod]
  rfl

theorem packed_rhoPi (s : State) : packed (Keccak.rhoPi s) = rhoPi (packed s) := by
  refine packed_eq_lanes fun i hi => ?_
  have hsource : (i % 5 + 3 * (i / 5)) % 5 + 5 * (i % 5) < 25 := by omega
  have hlength : (i % 5 + 3 * (i / 5)) % 5 + 5 * (i % 5) < rotations.toList.length := hsource
  simp only [Keccak.rhoPi, Vector.getElem_ofFn, toNat_rotateLeft]
  rw [lane_packed s hsource, List.getD_eq_getElem _ _ hlength, Vector.getElem_toList]

theorem packed_chi (s : State) : packed (Keccak.chi s) = chi (packed s) := by
  refine packed_eq_lanes fun i hi => ?_
  have hnext : (i % 5 + 1) % 5 + 5 * (i / 5) < 25 := by omega
  have hafter : (i % 5 + 2) % 5 + 5 * (i / 5) < 25 := by omega
  simp only [Keccak.chi, Vector.getElem_ofFn, UInt64.toNat_xor, UInt64.toNat_and, UInt64.toNat_not,
    Fin.getElem_fin]
  rw [lane_packed s hi, lane_packed s hnext, lane_packed s hafter]

/-- **A round of the permutation is arithmetic on one number.** -/
theorem packed_round (s : State) (constant : UInt64) :
    packed (Keccak.round s constant) = round (packed s) constant := by
  unfold Keccak.round round
  rw [← packed_theta, ← packed_rhoPi, ← packed_chi]
  refine packed_eq_lanes fun i hi => ?_
  rw [Vector.getElem_set, lane_packed _ hi]
  by_cases h0 : i = 0
  · subst h0
    rw [if_pos rfl, if_pos rfl, UInt64.toNat_xor]
  · rw [if_neg (Ne.symm h0), if_neg h0]

def permute (s : Nat) : Nat := roundConstants.foldl round s

theorem packed_permute (s : State) : packed (Keccak.permute s) = permute (packed s) :=
  (List.foldl_hom packed fun s constant => (packed_round s constant).symm).symm

/-! ## The sponge -/

def laneOfBytes (bs : Bytes) : Nat := bs.foldr (fun b n => n <<< 8 % UInt64.size ||| b.toNat) 0

theorem toNat_laneOfBytes (bs : Bytes) : (Keccak.laneOfBytes bs).toNat = laneOfBytes bs := by
  induction bs with
  | nil => rfl
  | cons b bs ih =>
    have hcons : Keccak.laneOfBytes (b :: bs) = Keccak.laneOfBytes bs <<< 8 ||| b.toUInt64 := rfl
    rw [hcons, UInt64.toNat_or, UInt64.toNat_shiftLeft, ih]
    rfl

def absorb (s : Nat) (block : Bytes) : Nat :=
  permute (lanes 25 fun i => lane s i ^^^ ((Bytes.pieces 8 17 block).map laneOfBytes).getD i 0)

theorem packed_absorb (s : State) (block : Bytes) :
    packed (Keccak.absorb s block) = absorb (packed s) block := by
  unfold Keccak.absorb absorb
  rw [packed_permute]
  refine congrArg permute (packed_eq_lanes fun i hi => ?_)
  have hlanes : (Bytes.pieces 8 17 block).map laneOfBytes =
      ((Bytes.pieces 8 17 block).map Keccak.laneOfBytes).map (·.toNat) := by
    rw [List.map_map]
    exact List.map_congr_left fun bs _ => (toNat_laneOfBytes bs).symm
  rw [Vector.getElem_ofFn, UInt64.toNat_xor, lane_packed s hi, hlanes]
  exact congrArg (s[i].toNat ^^^ ·) (List.getD_map ..).symm

/-- The first 32 bytes of the state after all blocks. -/
def digest (message : Bytes) : Bytes :=
  let s := (blocks (pad message)).foldl absorb (packed (Vector.replicate 25 0))
  bytesOfLane (UInt64.ofNat (lane s 0)) ++ bytesOfLane (UInt64.ofNat (lane s 1))
    ++ bytesOfLane (UInt64.ofNat (lane s 2)) ++ bytesOfLane (UInt64.ofNat (lane s 3))

theorem digest_eq (message : Bytes) : Keccak.digest message = digest message := by
  have hfold : packed ((blocks (pad message)).foldl Keccak.absorb (Vector.replicate 25 0)) =
      (blocks (pad message)).foldl absorb (packed (Vector.replicate 25 0)) :=
    (List.foldl_hom packed fun s block => (packed_absorb s block).symm).symm
  unfold Keccak.digest digest
  rw [← hfold]
  dsimp only
  rw [lane_packed _ (by decide), lane_packed _ (by decide), lane_packed _ (by decide),
    lane_packed _ (by decide), UInt64.ofNat_toNat, UInt64.ofNat_toNat, UInt64.ofNat_toNat,
    UInt64.ofNat_toNat]

end Packed

end Keccak

/-- **The digest of a message is computed with numbers.** -/
theorem keccak256_eq_packed : keccak256 = fun message => Word.ofBytes (Keccak.Packed.digest message) :=
  funext fun message => congrArg Word.ofBytes (Keccak.Packed.digest_eq message)

example : keccak256 [] = 0xc5d2460186f7233c927e7db2dcc703c0e500b653ca82273b7bfad8045d85a470 := by
  rw [keccak256_eq_packed]
  decide +kernel

end DocumentProof
