import HipFile.Lib.Strtoul
import HipFile.Model.MountInfo
import HipFile.Model.World

/-!
# The environment

`Environment::get` and the settings that `Configuration` reads with it, from the
environment as `Sys::getenv` answers: `none` where a variable is not set.
-/

namespace HipFile

open Strtoul

/-- `std::numeric_limits<unsigned int>::max()` -/
def UINT_MAX : ℕ := 2 ^ 32 - 1

/-- `!strcasecmp(a, b)` -/
def strcaseeq (a b : CString) : Bool := a.map Char.toLower = b.map Char.toLower

namespace Environment

/-- `Environment::get<bool>` -/
def getBool (getenv : CString → Option CString) (key : CString) : Option Bool :=
  match getenv key with
  | none => none
  | some value =>
    if strcaseeq value "true".toList then some true
    else if strcaseeq value "false".toList then some false
    else none

/-- `Environment::get<unsigned int>` -/
def getUnsignedInt (getenv : CString → Option CString) (key : CString) : Option ℕ :=
  match getenv key with
  | none => none
  | some value =>
    let x := strtoul value 0
    if x.errno ≠ 0 then none
    else if x.endptr = 0 then none
    else if value.drop x.endptr ≠ [] then none
    else if UINT_MAX < x.value then some UINT_MAX
    else some x.value

/-- `Environment::allow_compat_mode` -/
def allowCompatMode (getenv : CString → Option CString) : Option Bool :=
  getBool getenv "HIPFILE_ALLOW_COMPAT_MODE".toList

/-- `Environment::force_compat_mode` -/
def forceCompatMode (getenv : CString → Option CString) : Option Bool :=
  getBool getenv "HIPFILE_FORCE_COMPAT_MODE".toList

/-- `Environment::unsupported_file_systems` -/
def unsupportedFileSystems (getenv : CString → Option CString) : Option Bool :=
  getBool getenv "HIPFILE_UNSUPPORTED_FILE_SYSTEMS".toList

/-- `Environment::stats_level` -/
def statsLevel (getenv : CString → Option CString) : Option ℕ :=
  getUnsignedInt getenv "HIPFILE_STATS_LEVEL".toList

end Environment

/-- The settings as `Configuration` reads them without overrides, where the runtime has
`hipAmdFileRead` and `hipAmdFileWrite` or not. -/
def Configuration.ofEnvironment (getenv : CString → Option CString)
    (readExists writeExists : Bool) : Configuration where
  fastpath := readExists && writeExists && !(Environment.forceCompatMode getenv).getD false
  fallback := (Environment.allowCompatMode getenv).getD true
  statsLevel := (Environment.statsLevel getenv).getD 0
  unsupportedFileSystems := (Environment.unsupportedFileSystems getenv).getD false

end HipFile
