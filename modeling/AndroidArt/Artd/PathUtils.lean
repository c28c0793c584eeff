/-
artd's `path_utils.cc`: the validators and the builders that turn the
AIDL path descriptions artd receives into filesystem paths.

# What is modelled

A `std::string` is its `List Char`; `Result<T>` is `Except String T`,
the error carrying the message `Errorf` formats. The AIDL unions
`ProfilePath` and `WritableProfilePath` are inductive types with one
constructor per tag, so the `LOG(FATAL)` after each `switch` (a tag
outside the enumeration) cannot arise.

What the file calls outside itself is a field of `Env`: the data root
`GetAndroidDataOrError` returns, `NewFile::BuildTempPath` and
`ReplaceFileExtension`. `fmt`'s `{}` of an `int` is `formatInt`. The
`std::filesystem` operations are those of `AndroidArt.Filesystem`.

`BuildOatPath`, `BuildVdexPath`, `BuildArtBinPath` and
`ListManagedFiles` hand their real work to code outside the file:
`OatFileAssistant`, the instruction-set table, `GetAndroidExpandSafe`,
`GetArtRootSafe` and `tools::Glob` are the fields of `ArtifactsEnv`.
`BuildVdexPath` takes the `ArtifactsPath` its `DCHECK` says the
`VdexPath` holds.
-/
import AndroidArt.Filesystem.Decompose
import AndroidArt.Printf

namespace AndroidArt.Artd

open AndroidArt.Filesystem

-- ====================================================== AIDL types

structure PrimaryRefProfilePath where
  packageName : List Char
  profileName : List Char
  deriving DecidableEq, Repr

structure PrebuiltProfilePath where
  dexPath : List Char
  deriving DecidableEq, Repr

structure PrimaryCurProfilePath where
  userId : Int
  packageName : List Char
  profileName : List Char
  deriving DecidableEq, Repr

structure SecondaryRefProfilePath where
  dexPath : List Char
  deriving DecidableEq, Repr

structure SecondaryCurProfilePath where
  dexPath : List Char
  deriving DecidableEq, Repr

/-- The final path a temporary profile is committed to. -/
inductive WritableProfilePath
  | forPrimary (p : PrimaryRefProfilePath)
  | forSecondary (p : SecondaryRefProfilePath)
  deriving DecidableEq, Repr

structure TmpProfilePath where
  finalPath : WritableProfilePath
  id : List Char
  deriving DecidableEq, Repr

structure DexMetadataPath where
  dexPath : List Char
  deriving DecidableEq, Repr

structure ArtifactsPath where
  dexPath : List Char
  isa : List Char
  isInDalvikCache : Bool
  deriving DecidableEq, Repr

inductive ProfilePath
  | primaryRefProfilePath (p : PrimaryRefProfilePath)
  | prebuiltProfilePath (p : PrebuiltProfilePath)
  | primaryCurProfilePath (p : PrimaryCurProfilePath)
  | secondaryRefProfilePath (p : SecondaryRefProfilePath)
  | secondaryCurProfilePath (p : SecondaryCurProfilePath)
  | tmpProfilePath (p : TmpProfilePath)
  | dexMetadataPath (p : DexMetadataPath)
  deriving DecidableEq, Repr

/-- The collaborators `path_utils.cc` calls but does not define. -/
structure Env where
  /-- `GetAndroidDataOrError()`: the data root, or the error of
  `GetAndroidDataSafe`. -/
  androidData : Except String (List Char)
  /-- `NewFile::BuildTempPath(final_path, id)`. -/
  buildTempPath : List Char → List Char → List Char
  /-- `ReplaceFileExtension(path, new_extension)`. -/
  replaceFileExtension : List Char → List Char → List Char

/-- What the artifact builders ask of code outside the file, over the
instruction sets `Isa`. -/
structure ArtifactsEnv (Isa : Type) where
  /-- `GetInstructionSetFromString`; `none` is `InstructionSet::kNone`. -/
  getInstructionSetFromString : List Char → Option Isa
  /-- `OatFileAssistant::DexLocationToOatFilename(location, isa,
  deny_art_apex_data_files, ...)`: the file name, or `error_msg`. -/
  dexLocationToOatFilename : List Char → Isa → Bool → Except String (List Char)
  /-- `OatFileAssistant::DexLocationToOdexFilename`. -/
  dexLocationToOdexFilename : List Char → Isa → Except String (List Char)
  /-- `OatPathToVdexPath`. -/
  oatPathToVdexPath : List Char → List Char
  /-- `GetAndroidExpandOrError()`. -/
  androidExpand : Except String (List Char)
  /-- `GetArtRootOrError()`. -/
  artRoot : Except String (List Char)
  /-- `tools::Glob`. -/
  glob : List (List Char) → List (List Char)

/-- `fmt`'s `{}` of an `int`. -/
def formatInt (v : Int) : List Char := formatDecimal v

-- ====================================================== validators

/-- `ValidateAbsoluteNormalPath`: nonempty, no `'\0'`, absolute, and
equal as a path to its `lexically_normal()` form. -/
def validateAbsoluteNormalPath (pathStr : List Char) : Except String Unit :=
  if pathStr.isEmpty then .error "Path is empty"
  else if '\x00' ∈ pathStr then
    .error ("Path '" ++ String.mk pathStr ++ "' has invalid character '\\0'")
  else if !isAbsolute pathStr then
    .error ("Path '" ++ String.mk pathStr ++ "' is not an absolute path")
  else if !pathEquals (lexicallyNormal pathStr) pathStr then
    .error ("Path '" ++ String.mk pathStr ++ "' is not in normal form")
  else .ok ()

/-- `ValidatePathElementSubstring`: nonempty, no `'/'`, no `'\0'`; the
message names the field `name`. -/
def validatePathElementSubstring (pathElementSubstring : List Char) (name : String) :
    Except String Unit :=
  if pathElementSubstring.isEmpty then .error (name ++ " is empty")
  else if '/' ∈ pathElementSubstring then
    .error (name ++ " '" ++ String.mk pathElementSubstring ++ "' has invalid character '/'")
  else if '\x00' ∈ pathElementSubstring then
    .error (name ++ " '" ++ String.mk pathElementSubstring ++ "' has invalid character '\\0'")
  else .ok ()

/-- `ValidatePathElement`: a valid substring that is not `.` or `..`. -/
def validatePathElement (pathElement : List Char) (name : String) : Except String Unit := do
  validatePathElementSubstring pathElement name
  if pathElement = ['.'] ∨ pathElement = ['.', '.'] then
    .error ("Invalid " ++ name ++ " '" ++ String.mk pathElement ++ "'")
  else .ok ()

/-- `ValidateDexPath`. -/
def validateDexPath (dexPath : List Char) : Except String Unit := do
  validateAbsoluteNormalPath dexPath
  return ()

-- ======================================================== builders

section Builders

variable (env : Env)

/-- `BuildPrimaryRefProfilePath`: `{data}/misc/profiles/ref/{pkg}/{name}.prof`. -/
def buildPrimaryRefProfilePath (primaryRefProfilePath : PrimaryRefProfilePath) :
    Except String (List Char) := do
  validatePathElement primaryRefProfilePath.packageName "packageName"
  validatePathElementSubstring primaryRefProfilePath.profileName "profileName"
  let androidData ← env.androidData
  return androidData ++ "/misc/profiles/ref/".toList ++ primaryRefProfilePath.packageName ++
    '/' :: primaryRefProfilePath.profileName ++ ".prof".toList

/-- `BuildPrebuiltProfilePath`: the dex path with `.prof` appended. -/
def buildPrebuiltProfilePath (prebuiltProfilePath : PrebuiltProfilePath) :
    Except String (List Char) := do
  validateDexPath prebuiltProfilePath.dexPath
  return prebuiltProfilePath.dexPath ++ ".prof".toList

/-- `BuildPrimaryCurProfilePath`:
`{data}/misc/profiles/cur/{user}/{pkg}/{name}.prof`. -/
def buildPrimaryCurProfilePath (primaryCurProfilePath : PrimaryCurProfilePath) :
    Except String (List Char) := do
  validatePathElement primaryCurProfilePath.packageName "packageName"
  validatePathElementSubstring primaryCurProfilePath.profileName "profileName"
  let androidData ← env.androidData
  return androidData ++ "/misc/profiles/cur/".toList ++ formatInt primaryCurProfilePath.userId ++
    '/' :: primaryCurProfilePath.packageName ++ '/' :: primaryCurProfilePath.profileName ++
    ".prof".toList

/-- `BuildSecondaryRefProfilePath`: `{parent}/oat/{filename}.prof`. -/
def buildSecondaryRefProfilePath (secondaryRefProfilePath : SecondaryRefProfilePath) :
    Except String (List Char) := do
  validateDexPath secondaryRefProfilePath.dexPath
  let dexPath := secondaryRefProfilePath.dexPath
  return parentPath dexPath ++ "/oat/".toList ++ filename dexPath ++ ".prof".toList

/-- `BuildSecondaryCurProfilePath`: `{parent}/oat/{filename}.cur.prof`. -/
def buildSecondaryCurProfilePath (secondaryCurProfilePath : SecondaryCurProfilePath) :
    Except String (List Char) := do
  validateDexPath secondaryCurProfilePath.dexPath
  let dexPath := secondaryCurProfilePath.dexPath
  return parentPath dexPath ++ "/oat/".toList ++ filename dexPath ++ ".cur.prof".toList

/-- `BuildFinalProfilePath`. -/
def buildFinalProfilePath (tmpProfilePath : TmpProfilePath) : Except String (List Char) :=
  match tmpProfilePath.finalPath with
  | .forPrimary p => buildPrimaryRefProfilePath env p
  | .forSecondary p => buildSecondaryRefProfilePath p

/-- `BuildTmpProfilePath`. -/
def buildTmpProfilePath (tmpProfilePath : TmpProfilePath) : Except String (List Char) := do
  validatePathElementSubstring tmpProfilePath.id "id"
  let finalPath ← buildFinalProfilePath env tmpProfilePath
  return env.buildTempPath finalPath tmpProfilePath.id

/-- `BuildDexMetadataPath`: the dex path with its extension replaced by `dm`. -/
def buildDexMetadataPath (dexMetadataPath : DexMetadataPath) : Except String (List Char) := do
  validateDexPath dexMetadataPath.dexPath
  return env.replaceFileExtension dexMetadataPath.dexPath "dm".toList

/-- `BuildProfileOrDmPath`. -/
def buildProfileOrDmPath : ProfilePath → Except String (List Char)
  | .primaryRefProfilePath p => buildPrimaryRefProfilePath env p
  | .prebuiltProfilePath p => buildPrebuiltProfilePath p
  | .primaryCurProfilePath p => buildPrimaryCurProfilePath env p
  | .secondaryRefProfilePath p => buildSecondaryRefProfilePath p
  | .secondaryCurProfilePath p => buildSecondaryCurProfilePath p
  | .tmpProfilePath p => buildTmpProfilePath env p
  | .dexMetadataPath p => buildDexMetadataPath env p

end Builders

-- ======================================================= artifacts

section Artifacts

variable {Isa : Type} (env : Env) (artifactsEnv : ArtifactsEnv Isa)

/-- The patterns of `ListManagedFiles`, in the order it pushes them. -/
def managedFilePatterns (androidData androidExpand : List Char) : List (List Char) :=
  [androidData ++ "/misc/profiles/**".toList, androidData ++ "/dalvik-cache/**".toList] ++
    [androidData, androidExpand ++ "/*".toList].flatMap fun dataRoot =>
      (dataRoot ++ "/app/*/*/oat/**".toList) ::
        ["/user".toList, "/user_de".toList].flatMap fun userDir =>
          let secondaryOatDir := dataRoot ++ userDir ++ "/*/*/**/oat".toList
          ["".toList, ".*.tmp".toList].flatMap fun maybeTmpSuffix =>
            [secondaryOatDir ++ "/*.prof".toList ++ maybeTmpSuffix,
              secondaryOatDir ++ "/*/*.odex".toList ++ maybeTmpSuffix,
              secondaryOatDir ++ "/*/*.vdex".toList ++ maybeTmpSuffix,
              secondaryOatDir ++ "/*/*.art".toList ++ maybeTmpSuffix]

/-- `ListManagedFiles`. -/
def listManagedFiles : Except String (List (List Char)) := do
  let androidData ← env.androidData
  let androidExpand ← artifactsEnv.androidExpand
  return artifactsEnv.glob (managedFilePatterns androidData androidExpand)

/-- `BuildArtBinPath`: `{art_root}/bin/{binary_name}`. -/
def buildArtBinPath (binaryName : List Char) : Except String (List Char) := do
  let artRoot ← artifactsEnv.artRoot
  return artRoot ++ "/bin/".toList ++ binaryName

/-- `BuildOatPath`. -/
def buildOatPath (artifactsPath : ArtifactsPath) : Except String (List Char) := do
  validateDexPath artifactsPath.dexPath
  match artifactsEnv.getInstructionSetFromString artifactsPath.isa with
  | none => .error ("Instruction set '" ++ String.mk artifactsPath.isa ++ "' is invalid")
  | some isa =>
    if artifactsPath.isInDalvikCache then
      -- Apps' OAT files are never in ART APEX data.
      artifactsEnv.dexLocationToOatFilename artifactsPath.dexPath isa true
    else artifactsEnv.dexLocationToOdexFilename artifactsPath.dexPath isa

/-- `BuildVdexPath`. -/
def buildVdexPath (artifactsPath : ArtifactsPath) : Except String (List Char) := do
  let oatPath ← buildOatPath artifactsEnv artifactsPath
  return artifactsEnv.oatPathToVdexPath oatPath

end Artifacts

end AndroidArt.Artd
