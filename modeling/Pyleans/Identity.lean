import Mathlib

namespace Pyleans

structure GrainId where
  grainType : String
  key : String
deriving DecidableEq, Repr

def GrainId.toStr (g : GrainId) : String := s!"{g.grainType}/{g.key}"

/-- A silo of the cluster; the epoch tells restarts on one address apart. -/
structure SiloAddress where
  host : String
  port : ℤ
  epoch : ℤ
deriving DecidableEq, Repr

def SiloAddress.siloId (s : SiloAddress) : String := s!"{s.host}:{s.port}:{s.epoch}"

theorem colon_not_mem_natRepr (n : ℕ) : ':' ∉ n.repr.toList := by
  intro h
  have hd : ':' ∈ Nat.toDigits 10 n := by simpa [Nat.repr] using h
  exact absurd (Nat.isDigit_of_mem_toDigits (by decide) (by decide) hd) (by decide)

theorem colon_not_mem_intRepr (n : ℤ) : ':' ∉ n.repr.toList := by
  cases n with
  | ofNat n => exact colon_not_mem_natRepr n
  | negSucc n =>
    have h := colon_not_mem_natRepr (n + 1)
    simpa [Int.repr] using h

theorem split_last_colon {a b c d : List Char} (hb : ':' ∉ b) (hd : ':' ∉ d)
    (h : a ++ ':' :: b = c ++ ':' :: d) : a = c ∧ b = d := by
  induction a generalizing c with
  | nil =>
    cases c with
    | nil => simpa using h
    | cons x c =>
      simp only [List.nil_append, List.cons_append, List.cons.injEq] at h
      exact absurd (h.2 ▸ List.mem_append_right c List.mem_cons_self) hb
  | cons x a ih =>
    cases c with
    | nil =>
      simp only [List.nil_append, List.cons_append, List.cons.injEq] at h
      exact absurd (h.2 ▸ List.mem_append_right a List.mem_cons_self) hd
    | cons y c =>
      simp only [List.cons_append, List.cons.injEq] at h
      obtain ⟨hac, hbd⟩ := ih h.2
      exact ⟨by rw [h.1, hac], hbd⟩

theorem siloId_toList (s : SiloAddress) :
    s.siloId.toList = (s.host.toList ++ ':' :: s.port.repr.toList) ++ ':' ::
      s.epoch.repr.toList := by
  simp [SiloAddress.siloId, toString]

/-- Two silos never share a silo id, even when a host name contains colons. -/
theorem siloId_injective : Function.Injective SiloAddress.siloId := by
  intro s t h
  have hl := congrArg String.toList h
  rw [siloId_toList, siloId_toList] at hl
  obtain ⟨hhp, he⟩ := split_last_colon (colon_not_mem_intRepr _) (colon_not_mem_intRepr _) hl
  obtain ⟨hh, hp⟩ := split_last_colon (colon_not_mem_intRepr _) (colon_not_mem_intRepr _) hhp
  cases s
  cases t
  simp_all [String.toList_inj, Int.repr_inj]

/-- The process-stable 64-bit hash of a text. Nothing depends on its values,
only on every silo computing the same ones. -/
class StableHash where
  stableHash : String → UInt64

def hashGrainId [StableHash] (g : GrainId) : ℤ :=
  (StableHash.stableHash s!"{g.grainType}/{g.key}").toNat

def hashSiloVirtualNode [StableHash] (silo : SiloAddress) (vnodeIndex : ℕ) : ℤ :=
  (StableHash.stableHash s!"{silo.siloId}#{vnodeIndex}").toNat

theorem exists_hashSiloVirtualNode [StableHash] (silo : SiloAddress) (vnodeIndex : ℕ) :
    ∃ h : UInt64, hashSiloVirtualNode silo vnodeIndex = h.toNat := ⟨_, rfl⟩

/-- The hashes that the source computes for the few texts the concrete runs
below need. -/
abbrev sampleHash : StableHash where
  stableHash text :=
    if text = "a:11111:1#0" then 0xc5e69ff66574b2f3
    else if text = "b:11111:1#0" then 0xd36fcd7fa0f1c4e8
    else if text = "c:11111:1#0" then 0xcca9de8aa852cbef
    else if text = "Counter/c1" then 0x38f89b4b81c11156
    else if text = "Counter/c4" then 0xcb80eb530b9523d8
    else 0

abbrev spreadHash : StableHash where
  stableHash text := (text.toList.foldl (fun n (c : Char) ↦ 31 * n + c.toNat) 0).toUInt64

def siloA : SiloAddress := ⟨"a", 11111, 1⟩

def siloB : SiloAddress := ⟨"b", 11111, 1⟩

def siloC : SiloAddress := ⟨"c", 11111, 1⟩

def counter1 : GrainId := ⟨"Counter", "c1"⟩

def counter4 : GrainId := ⟨"Counter", "c4"⟩

end Pyleans
