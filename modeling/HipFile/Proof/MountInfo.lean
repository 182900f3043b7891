import HipFile.Model.MountInfo

/-!
# The journaling mode that is read from the mount options

The value of `data` is compared as a C string, which runs on past its end to the end of the
option string.

* `LibMount.Documented`: what libmount promises of `mnt_fs_get_option`.
* `fsMountInfo_data`: the string that the code compares.
* `expectedMode_perm`: the mode that the options mean does not depend on their order.
* `modeRead_iff`: the mode is read exactly if `data` is absent, or the last option, or has no
  value that the code knows.
-/

namespace HipFile

open LibMountHelper

/-- **libmount's documentation**: 1 if there is no such option, and otherwise 0 and the place of
the first character of the option's value in the option string. -/
structure LibMount.Documented (lib : LibMount) : Prop where
  absent : ∀ fs name, (∀ o ∈ fs.options, o.name ≠ name) → (lib.mntFsGetOption fs name).1 = 1
  found : ∀ fs name pre value post, fs.options = pre ++ ⟨name, some value⟩ :: post →
    (∀ o ∈ pre, o.name ≠ name) → lib.mntFsGetOption fs name =
      (0, (Joined.before ',' (pre.map MountOption.text)).length + (name ++ ['=']).length)

/-- The option `data` is given at most once, and with a value. -/
structure DataOnce (options : List MountOption) : Prop where
  once : options.countP (·.name = dataName) ≤ 1
  value : ∀ o ∈ options, o.name = dataName → o.value.isSome

/-- The values that name a mode. -/
def modeWords : List CString := ["journal".toList, "ordered".toList, "writeback".toList]

/-- The mode that an ext4 file system with these options has. -/
def expectedMode (options : List MountOption) : ExtJournalingMode :=
  match options.find? (·.name = dataName) with
  | none => .ordered
  | some o =>
    if o.value = some "journal".toList then .journal
    else if o.value = some "ordered".toList then .ordered
    else if o.value = some "writeback".toList then .writeback
    else .unknown

variable {lib : LibMount} {dev : ℕ} {fs : LibmntFs} {options pre post : List MountOption}
  {value : CString}

/-! ## The option `data` -/

theorem MountOption.text_some (name value : CString) :
    MountOption.text ⟨name, some value⟩ = name ++ ['='] ++ value := by
  rw [List.append_assoc]
  rfl

/-- No other option is `data`. -/
theorem DataOnce.others {o : MountOption} (h : DataOnce (pre ++ o :: post))
    (hname : o.name = dataName) :
    (∀ o ∈ pre, o.name ≠ dataName) ∧ ∀ o ∈ post, o.name ≠ dataName := by
  have hcount := h.once
  rw [List.countP_append, List.countP_cons_of_pos (by simpa using hname)] at hcount
  have hpre : pre.countP (·.name = dataName) = 0 := by omega
  have hpost : post.countP (·.name = dataName) = 0 := by omega
  rw [List.countP_eq_zero] at hpre hpost
  exact ⟨by simpa using hpre, by simpa using hpost⟩

/-- Either there is no `data`, or it has a value. -/
theorem DataOnce.cases (h : DataOnce options) : (∀ o ∈ options, o.name ≠ dataName) ∨
    ∃ pre value post, options = pre ++ ⟨dataName, some value⟩ :: post := by
  by_cases hall : ∀ o ∈ options, o.name ≠ dataName
  · exact Or.inl hall
  · simp only [not_forall, not_not] at hall
    obtain ⟨o, ho, hname⟩ := hall
    obtain ⟨value, hvalue⟩ := Option.isSome_iff_exists.1 (h.value o ho hname)
    obtain ⟨pre, post, rfl⟩ := List.append_of_mem ho
    refine Or.inr ⟨pre, value, post, ?_⟩
    rw [← hname, ← hvalue]

theorem DataOnce.perm {options' : List MountOption} (h : DataOnce options)
    (hperm : options.Perm options') : DataOnce options' := by
  refine ⟨?_, fun o ho => h.value o (hperm.mem_iff.2 ho)⟩
  rw [← hperm.countP_eq]
  exact h.once

theorem expectedMode_absent (h : ∀ o ∈ options, o.name ≠ dataName) :
    expectedMode options = .ordered := by
  have hfind : options.find? (·.name = dataName) = none := by
    rw [List.find?_eq_none]
    simpa using h
  rw [expectedMode, hfind]

theorem expectedMode_data (hpre : ∀ o ∈ pre, o.name ≠ dataName) :
    expectedMode (pre ++ ⟨dataName, some value⟩ :: post) = .ofCString value := by
  have hfind : (pre ++ ⟨dataName, some value⟩ :: post).find? (·.name = dataName) =
      some ⟨dataName, some value⟩ := by
    rw [List.find?_append, List.find?_eq_none.2 (by simpa using hpre)]
    simp
  rw [expectedMode, hfind]
  simp only [Option.some.injEq, ExtJournalingMode.ofCString]
  by_cases hj : value = "journal".toList
  · subst hj
    decide
  · rw [if_neg hj, if_neg hj]

/-- **The mode does not depend on the order of the options.** -/
theorem expectedMode_perm {options' : List MountOption} (h : DataOnce options)
    (hperm : options.Perm options') : expectedMode options = expectedMode options' := by
  have h' := h.perm hperm
  rcases h.cases with hno | ⟨pre, value, post, rfl⟩
  · rw [expectedMode_absent hno, expectedMode_absent fun o ho => hno o (hperm.mem_iff.2 ho)]
  · have hmem := hperm.mem_iff.1 (List.mem_append_right pre List.mem_cons_self)
    obtain ⟨pre', post', rfl⟩ := List.append_of_mem hmem
    rw [expectedMode_data (h.others rfl).1, expectedMode_data (h'.others rfl).1]

/-! ## What the code reads -/

theorem fsMountInfo_absent (hdoc : lib.Documented) (hext4 : fs.fstype = "ext4".toList)
    (hno : ∀ o ∈ fs.options, o.name ≠ dataName) (contexts : ℕ) :
    fsMountInfo lib fs contexts = (.ok (.ext4 .ordered), contexts) := by
  have hret := hdoc.absent fs dataName hno
  unfold fsMountInfo
  rw [if_pos hext4]
  simp only [hret]
  rfl

/-- **The code compares the value with all that follows it** in the option string. -/
theorem fsMountInfo_data (hdoc : lib.Documented) (hext4 : fs.fstype = "ext4".toList)
    (hopts : fs.options = pre ++ ⟨dataName, some value⟩ :: post)
    (hpre : ∀ o ∈ pre, o.name ≠ dataName) (contexts : ℕ) :
    fsMountInfo lib fs contexts =
      (.ok (.ext4 (.ofCString (value ++ Joined.after ',' (post.map MountOption.text)))),
        contexts) := by
  have hret := hdoc.found fs dataName pre value post hopts hpre
  have hstr : fs.cString (lib.mntFsGetOption fs dataName).2 =
      value ++ Joined.after ',' (post.map MountOption.text) := by
    rw [hret, LibmntFs.cString, LibmntFs.optstr, hopts, List.map_append, List.map_cons,
      MountOption.text_some]
    exact Joined.drop_before _ _ _ _
  unfold fsMountInfo
  rw [if_pos hext4]
  simp only [hstr]
  rw [if_pos (by rw [hret])]
  rfl

theorem ofCString_eq_unknown_iff : ExtJournalingMode.ofCString value = .unknown ↔
    value ∉ modeWords := by
  by_cases hmem : value ∈ modeWords
  · have hwords : ∀ w ∈ modeWords, ExtJournalingMode.ofCString w ≠ .unknown := by decide
    exact ⟨fun h => absurd h (hwords value hmem), fun h => absurd hmem h⟩
  · refine ⟨fun _ => hmem, fun _ => ?_⟩
    simp only [modeWords, List.mem_cons, not_or] at hmem
    obtain ⟨hj, ho, hw, -⟩ := hmem
    rw [ExtJournalingMode.ofCString, if_neg ho, if_neg hj, if_neg hw]

/-- Before another option no value is a word that the code knows. -/
theorem ofCString_after {fields : List CString} (hne : fields ≠ []) :
    ExtJournalingMode.ofCString (value ++ Joined.after ',' fields) = .unknown := by
  rw [ofCString_eq_unknown_iff]
  intro hmem
  have hcomma : ',' ∉ value ++ Joined.after ',' fields := by
    have hwords : ∀ w ∈ modeWords, ',' ∉ w := by decide
    exact hwords _ hmem
  exact hne ((Joined.append_after_eq_iff hcomma).1 rfl).1

/-! ## The mode -/

/-- **The journaling mode is read**: `getMountInfo` gives the mode of the file system, and a
file on it is recorded as on an ordered file system if it is. -/
structure ModeRead (lib : LibMount) (dev : ℕ) (fs : LibmntFs) : Prop where
  mode : ∀ contexts,
    (getMountInfo lib dev contexts).1 = .ok (some (.ext4 (expectedMode fs.options)))
  onExt4Ordered : ∀ calls contexts fd uf handle,
    calls.getMountInfo = (getMountInfo lib dev contexts).1 →
      UnregisteredFile.construct calls fd = .ok uf →
        ((File.construct handle uf).onExt4Ordered = true ↔ expectedMode fs.options = .ordered)

/-- `data` has a value that names a mode only as the last option. -/
def DataLast (options : List MountOption) : Prop :=
  ∀ pre value post, options = pre ++ ⟨dataName, some value⟩ :: post → value ∈ modeWords → post = []

/-- The mount information of a file is that of its file system. -/
theorem construct_mountinfo {calls : FileCalls} {fd : ℤ} {uf : UnregisteredFile}
    (h : UnregisteredFile.construct calls fd = .ok uf) : calls.getMountInfo = .ok uf.mountinfo := by
  unfold UnregisteredFile.construct at h
  split at h
  · cases h
  · split at h
    · cases h
    · split at h
      · cases h
      · rename_i mountinfo hmount
        rw [hmount]
        simp only at h
        split at h
        · split at h
          · cases h
          · cases h
            rfl
        · split at h
          · split at h
            · cases h
            · cases h
              rfl
          · cases h
            rfl

/-- The mode that `getMountInfo` gives decides. -/
theorem modeRead_of_mode (h : ∀ contexts, (getMountInfo lib dev contexts).1 =
    .ok (some (.ext4 (expectedMode fs.options)))) : ModeRead lib dev fs := by
  refine ⟨h, fun calls contexts fd uf handle hcall hfile => ?_⟩
  have hinfo := construct_mountinfo hfile
  rw [hcall, h, Except.ok.injEq] at hinfo
  simp [File.construct, ← hinfo]

/-- **The journaling mode is read** exactly if `data` is absent, or has a value that names no
mode, or is the last option. -/
theorem modeRead_iff (lib : LibMount) (dev : ℕ) (fs : LibmntFs) (hdoc : lib.Documented)
    (hcontext : lib.mntNewContext = true) (hmtab : lib.mntContextGetMtab = 0)
    (hfs : lib.mntTableFindDevno dev = some fs) (hext4 : fs.fstype = "ext4".toList)
    (hdata : DataOnce fs.options) : ModeRead lib dev fs ↔ DataLast fs.options := by
  have hmode {pre value post} (hopts : fs.options = pre ++ ⟨dataName, some value⟩ :: post)
      (contexts : ℕ) := getMountInfo_ext4 hcontext hmtab hfs contexts
    (fsMountInfo_data hdoc hext4 hopts ((hopts ▸ hdata).others rfl).1 _)
  have hexpected {pre value post} (hopts : fs.options = pre ++ ⟨dataName, some value⟩ :: post) :
      expectedMode fs.options = .ofCString value := by
    have hpre := ((hopts ▸ hdata).others rfl).1
    rw [hopts, expectedMode_data hpre]
  constructor
  · intro hread pre value post hopts hword
    have hgot := hread.mode 0
    rw [hmode hopts, hexpected hopts] at hgot
    simp only [Except.ok.injEq, Option.some.injEq, MountInfo.ext4.injEq] at hgot
    by_contra hpost
    rw [ofCString_after (by simpa using hpost)] at hgot
    exact ofCString_eq_unknown_iff.1 hgot.symm hword
  · refine fun hlast => modeRead_of_mode fun contexts => ?_
    rcases hdata.cases with hno | ⟨pre, value, post, hopts⟩
    · rw [expectedMode_absent hno, getMountInfo_ext4 hcontext hmtab hfs contexts
        (fsMountInfo_absent hdoc hext4 hno _)]
    · rw [hmode hopts, hexpected hopts]
      by_cases hpost : post = []
      · simp [hpost]
      · have hword : value ∉ modeWords := fun hword => hpost (hlast pre value post hopts hword)
        rw [ofCString_after (by simpa using hpost), ofCString_eq_unknown_iff.2 hword]

/-! ## A libmount -/

/-- `mnt_fs_get_option`, on the options that start at a place of the option string. -/
def findOption (name : CString) : ℕ → List MountOption → ℤ × ℕ
  | _, [] => (1, 0)
  | place, o :: options =>
    if o.name = name then (0, place + (o.name ++ ['=']).length)
    else findOption name (place + (o.text ++ [',']).length) options

/-- A libmount that knows one file system. -/
def libmount (fs : LibmntFs) : LibMount where
  mntNewContext := true
  mntContextGetMtab := 0
  mntTableFindDevno _ := some fs
  mntFsGetOption fs name := findOption name 0 fs.options

theorem findOption_absent {name : CString} (h : ∀ o ∈ options, o.name ≠ name) (place : ℕ) :
    (findOption name place options).1 = 1 := by
  induction options generalizing place with
  | nil => rfl
  | cons o options ih =>
    rw [findOption, if_neg (h o List.mem_cons_self)]
    exact ih (fun o' ho' => h o' (List.mem_cons_of_mem o ho')) _

theorem findOption_found {name : CString} (hpre : ∀ o ∈ pre, o.name ≠ name) (place : ℕ) :
    findOption name place (pre ++ ⟨name, some value⟩ :: post) =
      (0, place + ((Joined.before ',' (pre.map MountOption.text)).length +
        (name ++ ['=']).length)) := by
  induction pre generalizing place with
  | nil => simp [findOption]
  | cons o pre ih =>
    rw [List.cons_append, findOption, if_neg (hpre o List.mem_cons_self),
      ih (fun o' ho' => hpre o' (List.mem_cons_of_mem o ho')), List.map_cons, Joined.before_cons]
    simp only [List.length_append, Nat.add_assoc]

theorem libmount_documented (fs : LibmntFs) : (libmount fs).Documented where
  absent _ _ h := findOption_absent h 0
  found fs' name pre value post hopts hpre := by
    have hret : (libmount fs).mntFsGetOption fs' name = findOption name 0 fs'.options := rfl
    rw [hret, hopts, findOption_found hpre, Nat.zero_add]

/-- A file system mounted with `discard`, and with `data=ordered` after it. -/
def orderedLast : LibmntFs :=
  ⟨"ext4".toList, [⟨"discard".toList, none⟩, ⟨dataName, some "ordered".toList⟩]⟩

/-- The same options, in the other order. -/
def orderedFirst : LibmntFs := ⟨orderedLast.fstype, orderedLast.options.reverse⟩

theorem modeRead_orderedLast : ModeRead (libmount orderedLast) 0 orderedLast := by
  refine (modeRead_iff (libmount orderedLast) 0 orderedLast (libmount_documented _) rfl rfl rfl rfl
    ⟨by decide, by decide⟩).2 fun pre value post hopts _ => ?_
  have hlen := congrArg List.length hopts
  rcases pre with _ | ⟨o, pre⟩
  · exact absurd (List.cons.inj hopts).1 (by simp [dataName])
  · simp only [orderedLast, List.length_append, List.length_cons, List.length_nil] at hlen
    exact List.eq_nil_of_length_eq_zero (by omega)

/-- `data=ordered` is not read before another option. -/
theorem not_modeRead_orderedFirst :
    (getMountInfo (libmount orderedFirst) 0 0).1 = .ok (some (.ext4 .unknown)) ∧
      expectedMode orderedFirst.options = .ordered ∧
      ¬ ModeRead (libmount orderedFirst) 0 orderedFirst := by
  have hmode : (getMountInfo (libmount orderedFirst) 0 0).1 = .ok (some (.ext4 .unknown)) := by
    decide
  have hexpected : expectedMode orderedFirst.options = .ordered := by decide
  refine ⟨hmode, hexpected, fun hread => ?_⟩
  have hgot := hread.mode 0
  rw [hmode, hexpected] at hgot
  cases hgot

end HipFile
