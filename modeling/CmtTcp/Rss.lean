import CmtTcp.Basic

/-!
# Receive-side scaling

`rss.c`: the Toeplitz hash of a four-tuple, and the core it selects. The key of the hash repeats two
bytes, so its windows repeat every `16` bits (`keyCache_periodic`). Source and destination are hashed
with the same windows then, and exchanging them does not change the hash (`getRSSCPUCore_symmetric`).

The hash takes the words as they are; the address pools pass them in host order.
-/

namespace CmtTcp

/-- The number of bits per byte. -/
def nbby : ℕ := 8

def keyCacheLen : ℕ := 96

def rssBitMaskIxgbe : U32 := 0x0000007F

def rssBitMaskI40e : U32 := 0x000001FF

/-- `key` in `BuildKeyCache` -/
def rssKey : List U8 :=
  [0x6D, 0x5A, 0x6D, 0x5A, 0x6D, 0x5A, 0x6D, 0x5A,
   0x6D, 0x5A, 0x6D, 0x5A, 0x6D, 0x5A, 0x6D, 0x5A,
   0x6D, 0x5A, 0x6D, 0x5A, 0x6D, 0x5A, 0x6D, 0x5A,
   0x6D, 0x5A, 0x6D, 0x5A, 0x6D, 0x5A, 0x6D, 0x5A,
   0x6D, 0x5A, 0x6D, 0x5A, 0x6D, 0x5A, 0x6D, 0x5A]

/-- The loop of `BuildKeyCache`, with `n` entries to go: `result` is shifted through the key. -/
def buildKeyCacheLoop : ℕ → U32 → ℕ → List U32
  | 0, _, _ => []
  | n + 1, result, idx =>
    let shift := idx % nbby
    let byte : U32 := (rssKey.getD (idx / nbby) 0).setWidth 32
    let bit : U32 := if (byte <<< shift) &&& 0x80 ≠ 0 then 1 else 0
    result :: buildKeyCacheLoop n ((result <<< 1) ||| bit) (idx + 1)

/-- `BuildKeyCache` -/
def buildKeyCache (cacheLen : ℕ) : List U32 :=
  let byte (k : ℕ) : U32 := (rssKey.getD k 0).setWidth 32
  let result := (byte 0 <<< 24) ||| (byte 1 <<< 16) ||| (byte 2 <<< 8) ||| byte 3
  buildKeyCacheLoop cacheLen result 32

/-- `key_cache`, which the first call fills -/
def keyCache : List U32 := buildKeyCache keyCacheLen

/-- A loop of `GetRSSHash`, with `n` bits of `x` to go: for each bit that is set, from the highest
down, an entry of the cache is added. -/
def hashBits {w : ℕ} (cache : List U32) : ℕ → ℕ → BitVec w → U32 → U32
  | 0, _, _, res => res
  | n + 1, i, x, res =>
    hashBits cache n (i + 1) (x <<< 1) (if x.msb then res ^^^ cache.getD i 0 else res)

/-- `GetRSSHash` -/
def getRSSHash (sip dip : U32) (sp dp : U16) : U32 :=
  let res := hashBits keyCache 32 0 sip 0
  let res := hashBits keyCache 32 32 dip res
  let res := hashBits keyCache 16 64 sp res
  hashBits keyCache 16 80 dp res

/-- `off` in `GetRSSCPUCore` -/
def rssOff : List U32 := [3, 1, -1, -3]

/-- `masked` in `GetRSSCPUCore`: the index into the redirection table, which is in little endian order
on the one kind of card. -/
def rssMasked (hash : U32) (endianCheck : U8) : U32 :=
  if endianCheck ≠ 0 then
    let masked := hash &&& rssBitMaskI40e
    masked + rssOff.getD (masked &&& 0x3).toNat 0
  else hash &&& rssBitMaskIxgbe

/-- `GetRSSCPUCore`. The `int` `num_queues` is a word that the remainder reads as unsigned. The source
divides by it; what the model yields for `0` is of no account. -/
def getRSSCPUCore (sip dip : U32) (sp dp : U16) (numQueues : U32) (endianCheck : U8) : ℤ :=
  (rssMasked (getRSSHash sip dip sp dp) endianCheck % numQueues).toInt

/-! ### The windows of the key -/

/-- The key has period `16`, and so have its windows. -/
theorem keyCache_periodic : ∀ i < 80, keyCache.getD (i + 16) 0 = keyCache.getD i 0 := by
  decide +kernel

/-- Two places of the cache that are a multiple of the period apart. -/
theorem keyCache_periods (k : ℕ) {i : ℕ} (h : i + 16 * k < 96) :
    keyCache.getD (i + 16 * k) 0 = keyCache.getD i 0 := by
  induction k with
  | zero => rfl
  | succ k ih =>
    rw [show i + 16 * (k + 1) = i + 16 * k + 16 by omega, keyCache_periodic _ (by omega)]
    exact ih (by omega)

/-! ### The loops -/

section Hash

variable {w : ℕ} {cache : List U32} {n i j : ℕ} {x : BitVec w} {res : U32}

/-- A loop adds to what was there before. -/
theorem hashBits_xor (r : U32) :
    hashBits cache n i x (r ^^^ res) = r ^^^ hashBits cache n i x res := by
  induction n generalizing i x res with
  | zero => rfl
  | succ n ih =>
    unfold hashBits
    split
    · rw [BitVec.xor_assoc]
      exact ih
    · exact ih

theorem hashBits_eq (res : U32) : hashBits cache n i x res = res ^^^ hashBits cache n i x 0 := by
  calc
    hashBits cache n i x res = hashBits cache n i x (res ^^^ 0#32) := by rw [BitVec.xor_zero]
    _ = res ^^^ hashBits cache n i x 0 := hashBits_xor res

/-- A loop depends on the entries it looks at. -/
theorem hashBits_congr (h : ∀ k < n, cache.getD (i + k) 0 = cache.getD (j + k) 0) :
    hashBits cache n i x res = hashBits cache n j x res := by
  induction n generalizing i j x res with
  | zero => rfl
  | succ n ih =>
    unfold hashBits
    have h0 := h 0 (by omega)
    rw [Nat.add_zero, Nat.add_zero] at h0
    rw [h0]
    apply ih
    intro k hk
    have hk' := h (k + 1) (by omega)
    rwa [← Nat.add_assoc, ← Nat.add_assoc, Nat.add_right_comm i, Nat.add_right_comm j] at hk'

end Hash

/-- The destination is hashed like the source. -/
theorem hashBits_period {w : ℕ} (n i k : ℕ) (x : BitVec w) (h : i + 16 * k + n ≤ 96) :
    hashBits keyCache n (i + 16 * k) x 0 = hashBits keyCache n i x 0 := by
  apply hashBits_congr
  intro m hm
  rw [Nat.add_right_comm]
  exact keyCache_periods k (by omega)

/-- The hash is a sum of one term for each address and each port, and the terms of source and
destination are the same function. -/
theorem getRSSHash_eq (sip dip : U32) (sp dp : U16) :
    getRSSHash sip dip sp dp =
      hashBits keyCache 32 0 sip 0 ^^^ hashBits keyCache 32 0 dip 0 ^^^
        hashBits keyCache 16 64 sp 0 ^^^ hashBits keyCache 16 64 dp 0 := by
  unfold getRSSHash
  dsimp only
  rw [hashBits_eq (hashBits keyCache 16 64 sp _), hashBits_eq (hashBits keyCache 32 32 dip _),
    hashBits_eq (hashBits keyCache 32 0 sip 0)]
  rw [hashBits_period 32 0 2 dip (by omega), hashBits_period 16 64 1 dp (by omega)]

theorem getRSSHash_symmetric (sip dip : U32) (sp dp : U16) :
    getRSSHash sip dip sp dp = getRSSHash dip sip dp sp := by
  rw [getRSSHash_eq, getRSSHash_eq, BitVec.xor_comm (hashBits keyCache 32 0 sip 0),
    BitVec.xor_assoc, BitVec.xor_comm (hashBits keyCache 16 64 sp 0), ← BitVec.xor_assoc]

/-! ### The core -/

theorem getRSSCPUCore_swap (sip dip : U32) (sp dp : U16) (numQueues : U32) (endianCheck : U8) :
    getRSSCPUCore sip dip sp dp numQueues endianCheck =
      getRSSCPUCore dip sip dp sp numQueues endianCheck := by
  unfold getRSSCPUCore
  rw [getRSSHash_symmetric]

theorem getRSSCPUCore_range (sip dip : U32) (sp dp : U16) {numQueues : U32} (endianCheck : U8)
    (h : 1 ≤ numQueues.toInt) :
    0 ≤ getRSSCPUCore sip dip sp dp numQueues endianCheck ∧
      getRSSCPUCore sip dip sp dp numQueues endianCheck < numQueues.toInt := by
  unfold getRSSCPUCore
  generalize rssMasked (getRSSHash sip dip sp dp) endianCheck = masked
  -- a positive `int` is what it is as an unsigned word
  have hpos : 2 * numQueues.toNat < 2 ^ 32 ∧ 0 < numQueues.toNat := by
    rw [BitVec.toInt_eq_toNat_cond] at h
    split at h
    · omega
    · have hlt := numQueues.isLt
      omega
  have hlt : (masked % numQueues).toNat < numQueues.toNat := by
    rw [BitVec.toNat_umod]
    exact Nat.mod_lt _ hpos.2
  rw [BitVec.toInt_eq_toNat_of_lt (by omega), BitVec.toInt_eq_toNat_of_lt hpos.1]
  omega

/-- **Symmetry.** Both directions of a connection are served by one core, and it is one of the
`num_queues` cores. -/
theorem getRSSCPUCore_symmetric (sip dip : U32) (sp dp : U16) (numQueues : U32) (endianCheck : U8)
    (h : 1 ≤ numQueues.toInt) :
    getRSSCPUCore sip dip sp dp numQueues endianCheck =
        getRSSCPUCore dip sip dp sp numQueues endianCheck ∧
      0 ≤ getRSSCPUCore sip dip sp dp numQueues endianCheck ∧
      getRSSCPUCore sip dip sp dp numQueues endianCheck < numQueues.toInt :=
  ⟨getRSSCPUCore_swap sip dip sp dp numQueues endianCheck,
    getRSSCPUCore_range sip dip sp dp endianCheck h⟩

/-- Four queues, with the little endian table. -/
theorem getRSSCPUCore_symmetric_four :
    getRSSCPUCore 0x0A000001 0x0A000002 1025 80 4 1 = getRSSCPUCore 0x0A000002 0x0A000001 80 1025 4 1 ∧
      0 ≤ getRSSCPUCore 0x0A000001 0x0A000002 1025 80 4 1 ∧
      getRSSCPUCore 0x0A000001 0x0A000002 1025 80 4 1 < (4 : U32).toInt :=
  getRSSCPUCore_symmetric 0x0A000001 0x0A000002 1025 80 4 1 (by decide)

end CmtTcp
