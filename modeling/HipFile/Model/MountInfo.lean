import HipFile.Lib.Joined
import HipFile.Model.File

/-!
# The mount options of a file system

`LibMountHelper::getMountInfo` asks libmount for the file system of a device, and for an ext4
file system for its option `data`. `LibMount` has libmount's answers. A value is handed out as
a place in the option string of the file system, where it is read as a C string: up to the end
of the option string.
-/

namespace HipFile

/-- A C string, without the NUL that ends it. -/
abbrev CString := List Char

/-- A mount option. -/
structure MountOption where
  name : CString
  value : Option CString
  deriving DecidableEq, Repr

/-- The option as it stands in the option string. -/
def MountOption.text (o : MountOption) : CString :=
  match o.value with
  | none => o.name
  | some value => o.name ++ '=' :: value

/-- `libmnt_fs` -/
structure LibmntFs where
  fstype : CString
  options : List MountOption
  deriving DecidableEq, Repr

/-- The option string. -/
def LibmntFs.optstr (fs : LibmntFs) : CString :=
  [','].intercalate (fs.options.map MountOption.text)

/-- The C string at a place in the option string. -/
def LibmntFs.cString (fs : LibmntFs) (place : ℕ) : CString := fs.optstr.drop place

/-- The answers of libmount: whether `mnt_new_context` gives a context, the result of
`mnt_context_get_mtab`, the file system of a device, and the result of `mnt_fs_get_option`
with the place it sets `*value` to. -/
structure LibMount where
  mntNewContext : Bool
  mntContextGetMtab : ℤ
  mntTableFindDevno : ℕ → Option LibmntFs
  mntFsGetOption : LibmntFs → CString → ℤ × ℕ

/-- `"data"`, the option's name. -/
def dataName : CString := "data".toList

/-- The journaling mode that the code takes a C string for. -/
def ExtJournalingMode.ofCString (value : CString) : ExtJournalingMode :=
  if value = "ordered".toList then .ordered
  else if value = "journal".toList then .journal
  else if value = "writeback".toList then .writeback
  else .unknown

namespace LibMountHelper

/-- A part of `getMountInfo`, with the number of contexts that have not been freed. -/
abbrev Mount := Prog Exn ℕ

/-- `mnt_new_context` -/
def mntNewContext (lib : LibMount) : Mount Bool := fun contexts =>
  (.ok lib.mntNewContext, if lib.mntNewContext then contexts + 1 else contexts)

/-- `mnt_free_context` -/
def mntFreeContext : Mount Unit := Prog.update fun contexts => contexts - 1

/-- The file system's type and options. -/
def fsMountInfo (lib : LibMount) (fs : LibmntFs) : Mount MountInfo :=
  if fs.fstype = "ext4".toList then
    let r := lib.mntFsGetOption fs dataName
    if r.1 = 0 then return .ext4 (.ofCString (fs.cString r.2))
    else if r.1 = 1 then return .ext4 .ordered
    else do
      mntFreeContext
      Prog.throw (.runtimeError "libmount: Could not get mount option: data")
  else if fs.fstype = "xfs".toList then return .xfs
  else return .other

/-- `LibMountHelper::getMountInfo` -/
def getMountInfo (lib : LibMount) (dev : ℕ) : Mount (Option MountInfo) := do
  let context ← mntNewContext lib
  if ¬ context then Prog.throw (.runtimeError "libmount: Could not create context")
  else if lib.mntContextGetMtab ≠ 0 then do
    mntFreeContext
    Prog.throw (.runtimeError "libmount: Could not get mount table")
  else
    match lib.mntTableFindDevno dev with
    | none => do
      mntFreeContext
      return none
    | some fs => do
      let mountinfo ← fsMountInfo lib fs
      mntFreeContext
      return some mountinfo

/-- The file system's answers free the context if they throw. -/
theorem fsMountInfo_contexts (lib : LibMount) (fs : LibmntFs) (contexts : ℕ) :
    (∃ mountinfo, fsMountInfo lib fs contexts = (.ok mountinfo, contexts)) ∨
      ∃ e, fsMountInfo lib fs contexts = (.error e, contexts - 1) := by
  unfold fsMountInfo
  by_cases hext4 : fs.fstype = "ext4".toList
  · simp only [if_pos hext4]
    by_cases h0 : (lib.mntFsGetOption fs dataName).1 = 0
    · exact Or.inl ⟨_, by rw [if_pos h0]; rfl⟩
    · rw [if_neg h0]
      by_cases h1 : (lib.mntFsGetOption fs dataName).1 = 1
      · exact Or.inl ⟨_, by rw [if_pos h1]; rfl⟩
      · exact Or.inr ⟨_, by rw [if_neg h1]; rfl⟩
  · rw [if_neg hext4]
    by_cases hxfs : fs.fstype = "xfs".toList
    · exact Or.inl ⟨_, by rw [if_pos hxfs]; rfl⟩
    · exact Or.inl ⟨_, by rw [if_neg hxfs]; rfl⟩

/-- **Every way out frees the context.** -/
theorem getMountInfo_contexts (lib : LibMount) (dev contexts : ℕ) :
    (getMountInfo lib dev contexts).2 = contexts := by
  unfold getMountInfo
  by_cases hctx : lib.mntNewContext = true
  · have hnew : mntNewContext lib contexts = (.ok true, contexts + 1) := by
      simp [mntNewContext, hctx]
    rw [Prog.bind_ok hnew, if_neg (by simp)]
    split
    · rfl
    · cases lib.mntTableFindDevno dev with
      | none => rfl
      | some fs =>
        rcases fsMountInfo_contexts lib fs (contexts + 1) with ⟨mountinfo, h⟩ | ⟨e, h⟩
        · simp only [Prog.bind_ok h]
          rfl
        · simp only [Prog.bind_error h]
          rfl
  · have hnew : mntNewContext lib contexts = (.ok false, contexts) := by
      simp [mntNewContext, hctx]
    rw [Prog.bind_ok hnew, if_pos (by simp)]
    rfl

/-- The result for a file system that libmount knows. -/
theorem getMountInfo_ext4 {lib : LibMount} {dev : ℕ} {fs : LibmntFs}
    (hcontext : lib.mntNewContext = true) (hmtab : lib.mntContextGetMtab = 0)
    (hfs : lib.mntTableFindDevno dev = some fs)
    {mode : ExtJournalingMode} (contexts : ℕ)
    (hmode : fsMountInfo lib fs (contexts + 1) = (.ok (.ext4 mode), contexts + 1)) :
    getMountInfo lib dev contexts = (.ok (some (.ext4 mode)), contexts) := by
  have hnew : mntNewContext lib contexts = (.ok true, contexts + 1) := by
    simp [mntNewContext, hcontext]
  unfold getMountInfo
  rw [Prog.bind_ok hnew, if_neg (by simp), if_neg (by simp [hmtab]), hfs]
  simp only [Prog.bind_ok hmode]
  rfl

end LibMountHelper

end HipFile
