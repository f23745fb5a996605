import ResultSearch.Error
import ResultSearch.Hash.Xxh3

/-!
# Fingerprints

The identity of a test or of one of its subtests: the hash of the test's name and the hash of the
subtest's name, which is zero for the test itself. A subtest without a name counts as the test
itself; a named subtest whose hash is zero has no fingerprint.
-/

namespace ResultSearch

/-- A hash of names. -/
abbrev NameHash := String → UInt64

/-- The hash of a test's name and that of a subtest's name, zero for the test itself. -/
structure Fingerprint where
  test : UInt64
  sub : UInt64
  deriving DecidableEq

namespace Fingerprint

/-- Whether the fingerprint is one of a subtest. -/
def isSubtest (f : Fingerprint) : Bool := f.sub ≠ 0

/-- The fingerprint of the test that `f` belongs to. -/
def testLevel (f : Fingerprint) : Fingerprint := ⟨f.test, 0⟩

/-- The shard of `f` among `count`; a subtest shares the shard of its test. -/
def shard (f : Fingerprint) (count : Nat) : Nat := f.test.toNat % max count 1

/-- A word in sixteen hexadecimal digits. -/
def hexWord (x : UInt64) : String :=
  let ds := Text.hexDigits x.toNat
  String.ofList (List.replicate (16 - ds.length) '0' ++ ds)

/-- A fingerprint as it is shown, both hashes with all their digits. -/
def text (f : Fingerprint) : String := hexWord f.test ++ ":" ++ hexWord f.sub

/-- A subtest's name, if it is one. -/
def subtestName? (subtest : Option String) : Option String := subtest.filter (· ≠ "")

/-- The fingerprint of a test, or of a subtest of it. -/
def compute (hash : NameHash) (test : String) (subtest : Option String) :
    Except Error Fingerprint :=
  match subtestName? subtest with
  | none => .ok ⟨hash test, 0⟩
  | some sub =>
    if hash sub = 0 then .error (.zeroSubtestHash sub) else .ok ⟨hash test, hash sub⟩

theorem shard_testLevel (f : Fingerprint) (count : Nat) :
    f.testLevel.shard count = f.shard count := rfl

theorem shard_lt (f : Fingerprint) {count : Nat} (h : 0 < count) : f.shard count < count := by
  have hm : max count 1 = count := by omega
  rw [shard, hm]
  exact Nat.mod_lt _ h

end Fingerprint

end ResultSearch
