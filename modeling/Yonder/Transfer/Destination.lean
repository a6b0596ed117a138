import Yonder.Lib.Fallible
import Yonder.Transfer.Files

/-!
# Where a transfer is written

`BaseDirectory::resolve` and `resolve_destination`, over what is used of `std::path` on one platform
(`StdPath`) and over the answers that a file system gives to `metadata` and `symlink_metadata`.

`resolve` refuses a drive-relative path; `resolve_destination` does not ask. `destination_iff` says
for which targets this makes a difference: on Windows, for the drive-relative paths that can hold a
file. Every other target that is accepted is one that `resolve` accepts, and its final path is the
resolved one or, where that is a directory, the child of the peer's name.
-/

namespace Yonder.Transfer

open Lib Wire

/-! ## Paths -/

/-- `std::path::Component`; a name is kept in the bytes of its encoding. -/
inductive PathComponent where
  | pathPrefix (text : Bytes)
  | rootDir
  | curDir
  | parentDir
  | normal (name : Bytes)
deriving DecidableEq, Repr

/-- What is used of `std::path`, on one platform. -/
structure StdPath (Path : Type) where
  /-- Compiled for Windows. -/
  windows : Bool
  ofStr : String → Path
  components : Path → List PathComponent
  hasRoot : Path → Bool
  isAbsolute : Path → Bool
  join : Path → Path → Path
  parent : Path → Option Path
  fileName : Path → Option Bytes

/-- What is assumed of it: a parent is shorter than its path, and a name that is joined is added. -/
structure StdPath.Documented {Path : Type} (S : StdPath Path) : Prop where
  parent_ne : ∀ p, S.parent p ≠ some p
  join_ne : ∀ p q name, S.components q = [.normal name] → S.join p q ≠ p

/-! ## Names -/

/-- The device names of Windows. -/
def windowsDeviceNames : List String :=
  ["CON", "PRN", "AUX", "NUL", "COM1", "COM2", "COM3", "COM4", "COM5", "COM6", "COM7", "COM8",
    "COM9", "LPT1", "LPT2", "LPT3", "LPT4", "LPT5", "LPT6", "LPT7", "LPT8", "LPT9"]

/-- `to_ascii_uppercase` of a character. -/
def asciiUpper (c : Char) : Char :=
  if 'a' ≤ c ∧ c ≤ 'z' then Char.ofNat (c.toNat - 32) else c

/-- `is_windows_reserved_name`: the part before the first dot is a device, or the end is not kept. -/
def isWindowsReservedName (name : String) : Bool :=
  name.toList.getLast? == some ' ' || name.toList.getLast? == some '.' ||
    windowsDeviceNames.any fun device =>
      device.toList == (name.toList.takeWhile (· ≠ '.')).map asciiUpper

/-- `validate_default_file_name`, as compiled for the platform. -/
def validateDefaultFileName (windows : Bool) (name : String) : Bool :=
  !(name == "" || name == "." || name == "..") && decide ((utf8 name).length ≤ maxFileNameLen) &&
    !(name.toList.any fun c => c == '/' || isControl c) &&
    !(windows && (name.toList.any (· == '\\') || isWindowsReservedName name))

section Destination

variable {Path : Type} (S : StdPath Path)

/-- `validate_default_file_name_on_receiving_platform`: besides, the name is one component. -/
def validateDefaultFileNameOnReceivingPlatform (name : String) : Except FileSemanticsError Unit :=
  if validateDefaultFileName S.windows name = false then .error .invalidFileName
  else
    match S.components (S.ofStr name) with
    | [.normal _] =>
      if S.windows = true ∧ name.toList.any (· == ':') = true then .error .invalidFileName
      else .ok ()
    | _ => .error .invalidFileName

/-- `validate_protocol_path_string`. -/
def validateProtocolPathString (path : String) : Except FileSemanticsError Unit :=
  if maxPathLen < (utf8 path).length then .error .pathTooLong
  else if validateProtocolPath (utf8 path) then .ok ()
  else .error .invalidPathEncoding

/-- `is_drive_relative`: a drive and no root. -/
def isDriveRelative (path : String) : Bool :=
  !S.hasRoot (S.ofStr path) &&
    match S.components (S.ofStr path) with
    | .pathPrefix _ :: _ => true
    | _ => false

/-! ## The base directory -/

/-- `resolve_validated`. -/
def resolveValidated (base : Path) (path : String) : Path :=
  if S.isAbsolute (S.ofStr path) then S.ofStr path else S.join base (S.ofStr path)

/-- `BaseDirectory::resolve`. -/
def resolve (base : Path) (path : String) : Except FileSemanticsError Path :=
  if path = "" then .error .invalidRequest
  else do
    validateProtocolPathString path
    if S.windows && isDriveRelative S path then throw .invalidRequest
    return resolveValidated S base path

/-! ## The destination -/

/-- What a file system says about a path. -/
inductive Probe where
  | directory
  | other
  | notFound
  | permissionDenied
  | notADirectory
  | invalidFilename
  | failed
deriving DecidableEq, Repr

/-- `map_probe_error`, for the answers that are errors. -/
def mapProbeError : Probe → FileSemanticsError
  | .permissionDenied => .permissionDenied
  | .notADirectory => .destinationNotDirectory
  | .invalidFilename => .pathTooLong
  | _ => .io

/-- A state of the file system: `metadata` follows links, `symlink_metadata` does not. -/
structure FileSystem (Path : Type) where
  metadata : Path → Probe
  symlinkMetadata : Path → Probe
  found : ∀ p, symlinkMetadata p = .notFound → metadata p = .notFound

structure DestinationPlan (Path : Type) where
  finalPath : Path
  tempDir : Path
deriving DecidableEq

variable (fs : FileSystem Path)

/-- `ensure_destination_free`. -/
def ensureDestinationFree (finalPath : Path) : Except FileSemanticsError Unit :=
  match fs.symlinkMetadata finalPath with
  | .directory => .error .destinationExists
  | .other => .error .destinationExists
  | .notFound =>
    match S.parent finalPath with
    | none => .error .destinationParentNotFound
    | some parent =>
      match fs.metadata parent with
      | .directory => .ok ()
      | .other => .error .destinationNotDirectory
      | .notFound => .error .destinationParentNotFound
      | failure => .error (mapProbeError failure)
  | failure => .error (mapProbeError failure)

/-- `build_plan`. -/
def buildPlan (finalPath : Path) : Except FileSemanticsError (DestinationPlan Path) := do
  ensureDestinationFree S fs finalPath
  match S.parent finalPath with
  | none => throw .destinationParentNotFound
  | some tempDir => return ⟨finalPath, tempDir⟩

/-- The plan for the peer's name in a directory. -/
def planInDirectory (directory : Path) (defaultName : Option String) :
    Except FileSemanticsError (DestinationPlan Path) :=
  match defaultName with
  | none => .error .invalidFileName
  | some name => do
      validateDefaultFileNameOnReceivingPlatform S name
      buildPlan S fs (S.join directory (S.ofStr name))

/-- `resolve_destination`. -/
def resolveDestination (base : Path) (explicitTarget defaultName : Option String) :
    Except FileSemanticsError (DestinationPlan Path) :=
  let explicit := explicitTarget.getD ""
  if explicit = "" then planInDirectory S fs base defaultName
  else do
    validateProtocolPathString explicit
    let resolved := resolveValidated S base explicit
    match fs.metadata resolved with
    | .directory => planInDirectory S fs resolved defaultName
    | .other => throw .destinationExists
    | .notFound => buildPlan S fs resolved
    | failure => throw (mapProbeError failure)

/-! ## What is accepted -/

variable {S fs}

variable {finalPath base : Path} {plan : DestinationPlan Path} {defaultName : Option String}
  {target : String}

theorem ensureDestinationFree_ok {u : Unit} :
    ensureDestinationFree S fs finalPath = .ok u ↔
      fs.symlinkMetadata finalPath = .notFound ∧
        ∃ parent, S.parent finalPath = some parent ∧ fs.metadata parent = .directory := by
  unfold ensureDestinationFree
  cases fs.symlinkMetadata finalPath with
  | notFound =>
    cases S.parent finalPath with
    | none => simp
    | some parent => cases hparent : fs.metadata parent <;> simp [hparent]
  | directory | other | permissionDenied | notADirectory | invalidFilename | failed => simp

theorem buildPlan_ok :
    buildPlan S fs finalPath = .ok plan ↔
      plan.finalPath = finalPath ∧ S.parent finalPath = some plan.tempDir ∧
        fs.symlinkMetadata finalPath = .notFound ∧ fs.metadata plan.tempDir = .directory := by
  rw [buildPlan, bind_eq_ok_iff]
  constructor
  · rintro ⟨⟨⟩, hfree, hplan⟩
    obtain ⟨habsent, parent, hparent, hdirectory⟩ := ensureDestinationFree_ok.1 hfree
    rw [hparent] at hplan
    cases hplan
    exact ⟨rfl, hparent, habsent, hdirectory⟩
  · rintro ⟨rfl, hparent, habsent, hdirectory⟩
    refine ⟨(), ensureDestinationFree_ok.2 ⟨habsent, _, hparent, hdirectory⟩, ?_⟩
    rw [hparent]
    rfl

theorem planInDirectory_ok {directory : Path} :
    planInDirectory S fs directory defaultName = .ok plan ↔
      ∃ name, defaultName = some name ∧
        validateDefaultFileNameOnReceivingPlatform S name = .ok () ∧
        buildPlan S fs (S.join directory (S.ofStr name)) = .ok plan := by
  cases defaultName with
  | none =>
    refine ⟨fun h => (by cases h), ?_⟩
    rintro ⟨name, hname, -⟩
    cases hname
  | some name =>
    rw [planInDirectory, bind_eq_ok_iff]
    constructor
    · rintro ⟨⟨⟩, hvalid, hplan⟩
      exact ⟨name, rfl, hvalid, hplan⟩
    · rintro ⟨name', hname, hvalid, hplan⟩
      cases hname
      exact ⟨(), hvalid, hplan⟩

/-- A name that is accepted is one ordinary component. -/
theorem single_of_valid {name : String}
    (h : validateDefaultFileNameOnReceivingPlatform S name = .ok ()) :
    ∃ text, S.components (S.ofStr name) = [.normal text] := by
  unfold validateDefaultFileNameOnReceivingPlatform at h
  split at h
  case isTrue => cases h
  case isFalse =>
    split at h
    case h_1 text hcomponents => exact ⟨text, hcomponents⟩
    case h_2 => cases h

theorem resolveDestination_ok (hne : target ≠ "") :
    resolveDestination S fs base (some target) defaultName = .ok plan ↔
      validateProtocolPathString target = .ok () ∧
        (fs.metadata (resolveValidated S base target) = .directory ∧
            planInDirectory S fs (resolveValidated S base target) defaultName = .ok plan ∨
          fs.metadata (resolveValidated S base target) = .notFound ∧
            buildPlan S fs (resolveValidated S base target) = .ok plan) := by
  rw [resolveDestination, Option.getD_some, if_neg hne, bind_eq_ok_iff]
  constructor
  · rintro ⟨⟨⟩, hvalid, hplan⟩
    refine ⟨hvalid, ?_⟩
    dsimp only at hplan
    cases hprobe : fs.metadata (resolveValidated S base target) with
    | directory =>
      rw [hprobe] at hplan
      exact .inl ⟨rfl, hplan⟩
    | notFound =>
      rw [hprobe] at hplan
      exact .inr ⟨rfl, hplan⟩
    | other | permissionDenied | notADirectory | invalidFilename | failed =>
      rw [hprobe] at hplan
      cases hplan
  · rintro ⟨hvalid, ⟨hprobe, hplan⟩ | ⟨hprobe, hplan⟩⟩
    · refine ⟨(), hvalid, ?_⟩
      dsimp only
      rw [hprobe]
      exact hplan
    · refine ⟨(), hvalid, ?_⟩
      dsimp only
      rw [hprobe]
      exact hplan

variable (S) in
/-- The final path is a child of the directory, of a name that is accepted on this platform: the name
is one ordinary component, joined to the directory. -/
structure ChildOf (directory : Path) (name : String) (finalPath : Path) : Prop where
  valid : validateDefaultFileNameOnReceivingPlatform S name = .ok ()
  single : ∃ text, S.components (S.ofStr name) = [.normal text]
  joined : finalPath = S.join directory (S.ofStr name)

variable (S fs) in
/-- The final path for a resolved target: the target itself or, where that is a directory, the child
of the peer's name. -/
def Placed (resolved : Path) (defaultName : Option String) (finalPath : Path) : Prop :=
  finalPath = resolved ∨
    fs.metadata resolved = .directory ∧
      ∃ name, defaultName = some name ∧ ChildOf S resolved name finalPath

variable (S) in
/-- A path, or a file of an accepted name in it, has a parent to be created in. -/
def CanHold (p : Path) : Prop :=
  (S.parent p).isSome = true ∨
    ∃ name, validateDefaultFileNameOnReceivingPlatform S name = .ok () ∧
      (S.parent (S.join p (S.ofStr name))).isSome = true

variable (S) in
/-- A drive-relative target of Windows that nothing else refuses. -/
def Escapes (base : Path) (target : String) : Prop :=
  S.windows = true ∧ validateProtocolPathString target = .ok () ∧
    isDriveRelative S target = true ∧ CanHold S (resolveValidated S base target)

theorem childOf_of_plan {directory : Path}
    (h : planInDirectory S fs directory defaultName = .ok plan) :
    ∃ name, defaultName = some name ∧ ChildOf S directory name plan.finalPath := by
  obtain ⟨name, hname, hvalid, hplan⟩ := planInDirectory_ok.1 h
  exact ⟨name, hname, hvalid, single_of_valid hvalid, (buildPlan_ok.1 hplan).1⟩

theorem placed_of_ok (hne : target ≠ "")
    (h : resolveDestination S fs base (some target) defaultName = .ok plan) :
    Placed S fs (resolveValidated S base target) defaultName plan.finalPath := by
  obtain ⟨-, ⟨hprobe, hplan⟩ | ⟨-, hplan⟩⟩ := (resolveDestination_ok hne).1 h
  · exact .inr ⟨hprobe, childOf_of_plan hplan⟩
  · exact .inl (buildPlan_ok.1 hplan).1

theorem resolve_ok (hne : target ≠ "") {resolved : Path} :
    resolve S base target = .ok resolved ↔
      validateProtocolPathString target = .ok () ∧
        ¬ (S.windows = true ∧ isDriveRelative S target = true) ∧
        resolved = resolveValidated S base target := by
  rw [resolve, if_neg hne, bind_eq_ok_iff]
  constructor
  · rintro ⟨⟨⟩, hvalid, hrest⟩
    cases hdrive : S.windows && isDriveRelative S target with
    | true =>
      rw [hdrive] at hrest
      cases hrest
    | false =>
      rw [hdrive] at hrest
      refine ⟨hvalid, ?_, (Except.ok.inj hrest).symm⟩
      rintro ⟨hwindows, hrelative⟩
      rw [hwindows, hrelative] at hdrive
      cases hdrive
  · rintro ⟨hvalid, hdrive, rfl⟩
    refine ⟨(), hvalid, ?_⟩
    rw [← Bool.and_eq_true] at hdrive
    rw [Bool.eq_false_of_not_eq_true hdrive]
    rfl

open Classical in
/-- The file system in which everything but one path is a directory. -/
noncomputable def allBut (absent : Path) : FileSystem Path where
  metadata p := if p = absent then .notFound else .directory
  symlinkMetadata p := if p = absent then .notFound else .directory
  found _ h := h

theorem allBut_plan (hS : S.Documented) (h : (S.parent finalPath).isSome = true) :
    ∃ plan, buildPlan S (allBut finalPath) finalPath = .ok plan := by
  obtain ⟨parent, hparent⟩ := Option.isSome_iff_exists.1 h
  refine ⟨⟨finalPath, parent⟩, buildPlan_ok.2 ⟨rfl, hparent, if_pos rfl, if_neg ?_⟩⟩
  intro hsame
  exact hS.parent_ne finalPath (hparent.trans (congrArg some hsame))

/-- A target that can hold a file is accepted in some state of the file system. -/
theorem exists_accepted (hS : S.Documented) (hne : target ≠ "")
    (hvalid : validateProtocolPathString target = .ok ())
    (hhold : CanHold S (resolveValidated S base target)) :
    ∃ fs defaultName plan, resolveDestination S fs base (some target) defaultName = .ok plan := by
  rcases hhold with hparent | ⟨name, hname, hparent⟩
  · -- nothing is there yet
    obtain ⟨plan, hplan⟩ := allBut_plan hS hparent
    exact ⟨_, none, plan, (resolveDestination_ok hne).2 ⟨hvalid, .inr ⟨if_pos rfl, hplan⟩⟩⟩
  · -- the target is a directory without the peer's name in it
    obtain ⟨plan, hplan⟩ := allBut_plan hS hparent
    obtain ⟨text, hsingle⟩ := single_of_valid hname
    refine ⟨allBut (S.join (resolveValidated S base target) (S.ofStr name)), some name, plan,
      (resolveDestination_ok hne).2 ⟨hvalid, .inl ⟨?_, ?_⟩⟩⟩
    · exact if_neg (hS.join_ne _ _ text hsingle).symm
    · exact planInDirectory_ok.2 ⟨name, rfl, hname, hplan⟩

/-- For every base directory. A target that is not empty: in every state of the file system an accepted
target is one that `resolve` accepts, with the final path at the resolved one or right in it, exactly
when it is not a drive-relative target that nothing else refuses. No target or an empty one: the final
path is a child of the base directory. -/
theorem destination_iff (hS : S.Documented) (base : Path) :
    (∀ target : String, target ≠ "" →
      ((∀ (fs : FileSystem Path) (defaultName : Option String) (plan : DestinationPlan Path),
          resolveDestination S fs base (some target) defaultName = .ok plan →
            ∃ resolved, resolve S base target = .ok resolved ∧
              Placed S fs resolved defaultName plan.finalPath) ↔
        ¬ Escapes S base target)) ∧
      ∀ (fs : FileSystem Path) (explicitTarget defaultName : Option String)
        (plan : DestinationPlan Path), explicitTarget.getD "" = "" →
        resolveDestination S fs base explicitTarget defaultName = .ok plan →
          ∃ name, defaultName = some name ∧ ChildOf S base name plan.finalPath := by
  refine ⟨fun target hne => ⟨?_, ?_⟩, ?_⟩
  · rintro hall ⟨hwindows, hvalid, hrelative, hhold⟩
    obtain ⟨fs, defaultName, plan, hplan⟩ := exists_accepted hS hne hvalid hhold
    obtain ⟨resolved, hresolved, -⟩ := hall fs defaultName plan hplan
    exact ((resolve_ok hne).1 hresolved).2.1 ⟨hwindows, hrelative⟩
  · intro hescapes fs defaultName plan hplan
    obtain ⟨hvalid, hcases⟩ := (resolveDestination_ok hne).1 hplan
    refine ⟨_, (resolve_ok hne).2 ⟨hvalid, ?_, rfl⟩, placed_of_ok hne hplan⟩
    -- a plan shows that the target can hold a file
    rintro ⟨hwindows, hrelative⟩
    refine hescapes ⟨hwindows, hvalid, hrelative, ?_⟩
    rcases hcases with ⟨-, hin⟩ | ⟨-, hat⟩
    · obtain ⟨name, -, hname, hbuilt⟩ := planInDirectory_ok.1 hin
      exact .inr ⟨name, hname, Option.isSome_iff_exists.2 ⟨_, (buildPlan_ok.1 hbuilt).2.1⟩⟩
    · exact .inl (Option.isSome_iff_exists.2 ⟨_, (buildPlan_ok.1 hat).2.1⟩)
  · intro fs explicitTarget defaultName plan hempty hplan
    rw [resolveDestination, hempty] at hplan
    exact childOf_of_plan hplan

end Destination

/-! ## Paths in components -/

/-- A path in its parts, as the documentation of `std::path` takes the usual paths apart. -/
structure PathParts where
  drive : Option Bytes
  rooted : Bool
  rest : List PathComponent
deriving DecidableEq, Repr

namespace PathParts

/-- A separator of the platform. -/
def isSeparator (windows : Bool) (c : Char) : Bool := c == '/' || windows && c == '\\'

/-- The drive and what is behind it. -/
def splitDrive (windows : Bool) : List Char → Option Bytes × List Char
  | letter :: ':' :: rest =>
    if windows && letter.isAlpha then (some (utf8 (String.ofList [letter, ':'])), rest)
    else (none, letter :: ':' :: rest)
  | text => (none, text)

/-- One piece between separators. -/
def piece (text : List Char) : Option PathComponent :=
  if text = [] ∨ text = ['.'] then none
  else if text = ['.', '.'] then some .parentDir
  else some (.normal (utf8 (String.ofList text)))

def ofStr (windows : Bool) (text : String) : PathParts :=
  let (drive, behind) := splitDrive windows text.toList
  ⟨drive, (behind.head?.map (isSeparator windows)).getD false,
    (behind.splitOnP (isSeparator windows)).filterMap piece⟩

def components (p : PathParts) : List PathComponent :=
  (p.drive.map .pathPrefix).toList ++ (if p.rooted then [.rootDir] else []) ++ p.rest

def isAbsolute (windows : Bool) (p : PathParts) : Bool := p.rooted && (!windows || p.drive.isSome)

/-- An absolute path or one with a drive replaces the path, one with a root all but the drive. -/
def join (p q : PathParts) : PathParts :=
  if q.drive.isSome then q
  else if q.rooted then { q with drive := p.drive }
  else { p with rest := p.rest ++ q.rest }

def parent (p : PathParts) : Option PathParts :=
  if p.rest = [] then none else some { p with rest := p.rest.dropLast }

def fileName (p : PathParts) : Option Bytes :=
  match p.rest.getLast? with
  | some (.normal name) => some name
  | _ => none

/-- These paths as those of a platform. -/
def platform (windows : Bool) : StdPath PathParts where
  windows := windows
  ofStr := ofStr windows
  components := components
  hasRoot := rooted
  isAbsolute := isAbsolute windows
  join := join
  parent := parent
  fileName := fileName

theorem documented (windows : Bool) : (platform windows).Documented where
  parent_ne p h := by
    change parent p = some p at h
    unfold parent at h
    split at h
    case isTrue => cases h
    case isFalse hne =>
      have hlength := congrArg (fun q => q.rest.length) (Option.some.inj h)
      dsimp only at hlength
      rw [List.length_dropLast] at hlength
      have hpos := List.length_pos_of_ne_nil hne
      omega
  join_ne p q name hq h := by
    obtain ⟨drive, rooted, rest⟩ := q
    -- one ordinary component leaves no room for a drive or a root
    cases drive with
    | some text => cases rooted <;> cases hq
    | none =>
      cases rooted with
      | true => cases hq
      | false =>
        cases hq
        have hlength := congrArg (fun q => q.rest.length) h
        change (p.rest ++ [_]).length = p.rest.length at hlength
        rw [List.length_append, List.length_singleton] at hlength
        omega

end PathParts

/-- The equivalence on both platforms, at a base directory. -/
theorem destination_iff_platforms :
    (Escapes (PathParts.platform true) (PathParts.ofStr true "D:\\work") "C:name" ∧
      ¬ ∀ (fs : FileSystem PathParts) (defaultName : Option String) (plan : DestinationPlan PathParts),
        resolveDestination (PathParts.platform true) fs (PathParts.ofStr true "D:\\work")
            (some "C:name") defaultName = .ok plan →
          ∃ resolved, resolve (PathParts.platform true) (PathParts.ofStr true "D:\\work") "C:name" =
              .ok resolved ∧
            Placed (PathParts.platform true) fs resolved defaultName plan.finalPath) ∧
      ∀ (fs : FileSystem PathParts) (defaultName : Option String) (plan : DestinationPlan PathParts),
        resolveDestination (PathParts.platform false) fs (PathParts.ofStr false "/work")
            (some "C:name") defaultName = .ok plan →
          ∃ resolved, resolve (PathParts.platform false) (PathParts.ofStr false "/work") "C:name" =
              .ok resolved ∧
            Placed (PathParts.platform false) fs resolved defaultName plan.finalPath := by
  have hescapes : Escapes (PathParts.platform true) (PathParts.ofStr true "D:\\work") "C:name" :=
    ⟨rfl, by decide +kernel, by decide +kernel, .inl (by decide +kernel)⟩
  have hne : "C:name" ≠ "" := by decide
  refine ⟨⟨hescapes, fun hall => ?_⟩, ?_⟩
  · exact ((destination_iff (PathParts.documented true) _).1 "C:name" hne).1 hall hescapes
  · refine ((destination_iff (PathParts.documented false) _).1 "C:name" hne).2 ?_
    rintro ⟨hwindows, -⟩
    cases hwindows

/-- The file system that has these directories and nothing else. -/
def FileSystem.onlyDirectories {Path : Type} [DecidableEq Path] (directories : List Path) :
    FileSystem Path where
  metadata p := if p ∈ directories then .directory else .notFound
  symlinkMetadata p := if p ∈ directories then .directory else .notFound
  found _ h := h

/-- On Windows the target `C:name` is accepted and leaves the base directory `D:\work`; `resolve`
refuses it. -/
theorem drive_relative_accepted :
    resolve (PathParts.platform true) (PathParts.ofStr true "D:\\work") "C:name" =
        .error .invalidRequest ∧
      ∃ plan, resolveDestination (PathParts.platform true)
          (.onlyDirectories [PathParts.ofStr true "C:", PathParts.ofStr true "D:\\work"])
          (PathParts.ofStr true "D:\\work") (some "C:name") (some "name") = .ok plan ∧
        plan.finalPath.components = [.pathPrefix (utf8 "C:"), .normal (utf8 "name")] := by
  refine ⟨by decide +kernel, ⟨PathParts.ofStr true "C:name", PathParts.ofStr true "C:"⟩, ?_, ?_⟩
  · refine (resolveDestination_ok (by decide)).2 ⟨by decide +kernel, .inr ⟨by decide +kernel, ?_⟩⟩
    exact buildPlan_ok.2 ⟨by decide +kernel, by decide +kernel, by decide +kernel, by decide +kernel⟩
  · decide +kernel

end Yonder.Transfer
