import CdDaReader.Reader.ReadToc
import CdDaReader.Rust.Sorted
import Mathlib.Data.String.Basic

/-!
# Finding a drive

Each platform lists its drives in its own way. A path of the list is probed:
it is opened, and the table of contents is read for an audio track. The
default drive is the first with one, and it is opened once more. What a path
opens to, and whether it does, may depend on everything before.
-/

namespace CdDaReader

open Rust

structure DriveInfo where
  path : String
  hasAudioCd : Bool
  deriving DecidableEq, Repr

-- ---------------------------------------------------------------------------
-- Paths
-- ---------------------------------------------------------------------------

/-- The names in `/sys/class/block`, if it can be read, and whether
`/dev/cdrom` is there. -/
def Linux.listDrivePaths (entries : Option (List String)) (cdromExists : Bool) : List String :=
  let drives := ((entries.getD []).filter fun name => "sr".toList.isPrefixOf name.toList).map
    fun name => "/dev/" ++ name
  let drives := if drives.isEmpty && cdromExists then drives ++ ["/dev/cdrom"] else drives
  dedup (sort drives)

/-- `GetDriveTypeW` of the root of a drive letter. -/
def Windows.listDrivePaths (driveType : Char → UInt32) : List String :=
  (((List.range 26).map fun i => Char.ofNat (65 + i)).filter fun drive => driveType drive == 5).map
    fun drive => "\\\\.\\" ++ drive.toString ++ ":"

/-- The names of `list_cd_drives`; `none` is its `false`. -/
def MacOs.listDrivePaths : Option (List String) → Except IoError (List String)
  | none => .error ⟨.other, "could not enumerate CD drives"⟩
  | some names => .ok (dedup (sort (names.filter fun path => !path.isEmpty)))

/-- What a platform answers when it is asked for its drives. -/
inductive Listing
  | linux (entries : Option (List String)) (cdromExists : Bool)
  | windows (driveType : Char → UInt32)
  | macOs (names : Option (List String))

def Listing.paths : Listing → Except IoError (List String)
  | .linux entries cdromExists => .ok (Linux.listDrivePaths entries cdromExists)
  | .windows driveType => .ok (Windows.listDrivePaths driveType)
  | .macOs names => MacOs.listDrivePaths names

example : Listing.paths (.linux (some ["sda", "sr1", "sr0", "loop0"]) true) =
    .ok ["/dev/sr0", "/dev/sr1"] := by decide

-- ---------------------------------------------------------------------------
-- Sessions
-- ---------------------------------------------------------------------------

inductive MachineEvent
  | listed
  | opened (path : String)
  | used (path : String) (history : History)

/-- What a program did on the machine so far. -/
abbrev World := List MachineEvent

structure Machine where
  listing : World → Listing
  openDrive : World → String → Except IoError Platform

abbrev Session (α : Type) := Exec World CdReaderError α

def Session.log (event : MachineEvent) : Session Unit := modify (· ++ [event])

/-- A call of an open reader, from its first command on, whose `Err` the
program looks at. -/
def Session.use (path : String) (x : Run α) : Session (Except CdReaderError α) :=
  x.attempt.zoom (fun _ => []) fun world history => world ++ [.used path history]

def listDrivePaths (machine : Machine) : Session (List String) := do
  let world ← get
  Session.log .listed
  match (machine.listing world).paths with
  | .ok paths => return paths
  | .error err => fail (CdReaderError.io err)

def CdReader.openPath (machine : Machine) (path : String) : Session CdReader := do
  let world ← get
  Session.log (.opened path)
  match machine.openDrive world path with
  | .ok platform => return platform.reader
  | .error err => fail (CdReaderError.io err)

def Toc.hasAudio (toc : Toc) : Bool := toc.tracks.any fun track => track.isAudio

/-- The `has_audio_cd` of a path. -/
def probeDrive (host : Host) (machine : Machine) (path : String) : Session Bool := do
  match ← (CdReader.openPath machine path).attempt with
  | .ok reader =>
    match ← Session.use path (reader.readToc host) with
    | .ok toc => return toc.hasAudio
    | .error _ => return false
  | .error _ => return false

/-- One pass of the loop. -/
def listDrive (host : Host) (machine : Machine) (drives : List DriveInfo) (path : String) :
    Session (List DriveInfo) := do
  let hasAudioCd ← probeDrive host machine path
  return drives ++ [⟨path, hasAudioCd⟩]

def CdReader.listDrives (host : Host) (machine : Machine) : Session (List DriveInfo) := do
  let paths ← listDrivePaths machine
  (dedup (sort paths)).foldlM (listDrive host machine) []

def pickDefaultDrive (drives : List DriveInfo) : Option DriveInfo :=
  drives.find? fun drive => drive.hasAudioCd

def CdReader.openDefault (host : Host) (machine : Machine) : Session CdReader := do
  let drives ← listDrives host machine
  let chosen ← okOr (pickDefaultDrive drives) CdReaderError.noUsableDrive
  openPath machine chosen.path

-- ---------------------------------------------------------------------------
-- Probes
-- ---------------------------------------------------------------------------

/-- The paths opened so far, in order. -/
def opens : World → List String
  | [] => []
  | .opened path :: world => path :: opens world
  | _ :: world => opens world

@[simp] theorem opens_append (world world' : World) :
    opens (world ++ world') = opens world ++ opens world' := by
  induction world with
  | nil => rfl
  | cons event world ih => cases event <;> simp [opens, ih]

def Medium.hasAudio (medium : Medium) : Bool := medium.layout.toc.hasAudio

/-- Whatever a path opens to, and whenever, is a drive with its medium. -/
def Machine.Honours (machine : Machine) (media : String → Medium) : Prop :=
  ∀ world path platform, machine.openDrive world path = .ok platform →
    platform.Honours (media path)

/-- In this world the path opens, to a drive that hands over its whole
table. -/
def Machine.Ready (machine : Machine) (media : String → Medium) (world : World)
    (path : String) : Prop :=
  ∃ platform data, machine.openDrive world path = .ok platform ∧
    platform.reader.drive [] .readToc = .ok data ∧ (media path).layout.IsResponse data

/-- The path is ready, and its disc has an audio track. -/
def Machine.PlaysAudio (machine : Machine) (media : String → Medium) (world : World)
    (path : String) : Prop :=
  machine.Ready media world path ∧ (media path).hasAudio = true

section
variable {machine : Machine} {media : String → Medium}

theorem openPath_exec (machine : Machine) (path : String) (world : World) :
    (CdReader.openPath machine path).exec world =
      (ofResult ((machine.openDrive world path).map Platform.reader |>.mapError CdReaderError.io),
        world ++ [.opened path]) := by
  unfold CdReader.openPath
  rw [exec_bind_ok (exec_get world)]
  cases machine.openDrive world path <;> rfl

theorem Session.use_exec {x : Run α} {result : Except CdReaderError α}
    (h : x.exec [] = (ofResult result, history)) (path : String) (world : World) :
    (Session.use path x).exec world = (.ok result, world ++ [.used path history]) := by
  refine exec_zoom ?_
  exact exec_attempt h

/-- A probe ends, opens its path once, and finds what there is in its world. -/
theorem probeDrive_exec (hhonours : machine.Honours media) (host : Host) (path : String)
    (world : World) : ∃ found world', (probeDrive host machine path).exec world =
        (.ok found, world') ∧
      opens world' = opens world ++ [path] ∧
      (found = true ↔ machine.PlaysAudio media world path) := by
  unfold probeDrive
  rw [exec_bind_ok (exec_attempt (openPath_exec machine path world))]
  cases hopen : machine.openDrive world path with
  | error err =>
    refine ⟨false, _, rfl, by simp [opens], nofun, ?_⟩
    rintro ⟨⟨platform, _, hok, -⟩, -⟩
    cases hopen.symm.trans hok
  | ok platform =>
    obtain ⟨result, hexec, hreads⟩ := readToc_platforms (hhonours _ _ _ hopen) host []
    simp only [Except.map, Except.mapError]
    rw [exec_bind_ok (Session.use_exec hexec path _)]
    cases hanswer : platform.reader.drive [] .readToc with
    | error err =>
      rw [hanswer] at hreads
      cases hreads
      refine ⟨false, _, rfl, by simp [opens], nofun, ?_⟩
      rintro ⟨⟨platform', data, hok, hdata, -⟩, -⟩
      cases hopen.symm.trans hok
      cases hanswer.symm.trans hdata
    | ok data =>
      rw [hanswer] at hreads
      cases result with
      | ok toc =>
        obtain ⟨hwhole, rfl⟩ := hreads
        refine ⟨_, _, rfl, by simp [opens], fun haudio => ⟨?_, haudio⟩, fun hplays => hplays.2⟩
        exact ⟨platform, data, hopen, hanswer, hwhole⟩
      | error err =>
        refine ⟨false, _, rfl, by simp [opens], nofun, ?_⟩
        rintro ⟨⟨platform', data', hok, hdata, hwhole⟩, -⟩
        cases hopen.symm.trans hok
        cases hanswer.symm.trans hdata
        exact absurd hwhole hreads.1

-- ---------------------------------------------------------------------------
-- The list and the default
-- ---------------------------------------------------------------------------

/-- A probe of a path, the world in which it was made, and what it found. -/
structure Probe where
  world : World
  path : String
  found : Bool

def Probe.drive (probe : Probe) : DriveInfo := ⟨probe.path, probe.found⟩

/-- Probes are made one after the other, each in the world that the one before
it left, and each finds what there is in that world. -/
inductive Probed (machine : Machine) (media : String → Medium) (world : World) :
    List Probe → World → Prop
  | nil : Probed machine media world [] world
  | snoc (hprobed : Probed machine media world probes world')
      (hopened : opens world'' = opens world' ++ [path])
      (hfound : found = true ↔ machine.PlaysAudio media world' path) :
      Probed machine media world (probes ++ [⟨world', path, found⟩]) world''

theorem Probed.opens_eq (h : Probed machine media world probes world') :
    opens world' = opens world ++ probes.map Probe.path := by
  induction h with
  | nil => rw [List.map_nil, List.append_nil]
  | snoc _ hopened _ ih => rw [hopened, ih, List.append_assoc, List.map_append]; rfl

theorem Probed.found_iff (h : Probed machine media world probes world') (hmem : probe ∈ probes) :
    probe.found = true ↔ machine.PlaysAudio media probe.world probe.path := by
  induction h with
  | nil => cases hmem
  | snoc _ _ hfound ih =>
    rcases List.mem_append.mp hmem with hmem | hmem
    · exact ih hmem
    · cases List.mem_singleton.mp hmem
      exact hfound

/-- What a listing of some paths does: it probes each path once, in order. -/
structure Found (machine : Machine) (media : String → Medium) (paths : List String)
    (probes : List Probe) (world world' : World) : Prop where
  ordered : (probes.map Probe.path).Pairwise (· < ·)
  mem_iff : ∀ path, path ∈ probes.map Probe.path ↔ path ∈ paths
  probed : Probed machine media (world ++ [.listed]) probes world'
  opens_eq : opens world' = opens world ++ probes.map Probe.path

theorem Probed.found (h : Probed machine media (world ++ [.listed]) probes world')
    (hpaths : probes.map Probe.path = dedup (sort paths)) :
    Found machine media paths probes world world' := by
  constructor
  case ordered =>
    rw [hpaths]
    exact pairwise_dedup_sort paths
  case mem_iff => simp [hpaths]
  case probed => exact h
  case opens_eq => simp [h.opens_eq, opens]

theorem listDrivePaths_exec (machine : Machine) (world : World) :
    (listDrivePaths machine).exec world =
      (ofResult ((machine.listing world).paths.mapError CdReaderError.io),
        world ++ [.listed]) := by
  unfold listDrivePaths
  rw [exec_bind_ok (exec_get world)]
  cases (machine.listing world).paths <;> rfl

/-- What the loop has made of some paths. -/
def Listed (machine : Machine) (media : String → Medium) (world : World) (done : List String)
    (drives : List DriveInfo) (world' : World) : Prop :=
  ∃ probes, drives = probes.map Probe.drive ∧ probes.map Probe.path = done ∧
    Probed machine media world probes world'

theorem listDrive_passes (hhonours : machine.Honours media) (host : Host) (world : World)
    (paths : List String) : ∀ done path rest drives world', paths = done ++ path :: rest →
      Listed machine media world done drives world' →
      (∃ drives' world'', (listDrive host machine drives path).exec world' =
          (.ok drives', world'') ∧
        Listed machine media world (done ++ [path]) drives' world'') ∨
      ∃ e world'', (listDrive host machine drives path).exec world' = (.error e, world'') ∧
        False := by
  rintro _ path rest _ world' _ ⟨probes, rfl, rfl, hprobed⟩
  obtain ⟨found, world'', hexec, hopened, hfound⟩ := probeDrive_exec hhonours host path world'
  have hlisted : Listed machine media world (probes.map Probe.path ++ [path])
      (probes.map Probe.drive ++ [⟨path, found⟩]) world'' :=
    ⟨probes ++ [⟨world', path, found⟩], by rw [List.map_append]; rfl, by rw [List.map_append]; rfl,
      .snoc hprobed hopened hfound⟩
  refine .inl ⟨_, world'', ?_, hlisted⟩
  unfold listDrive
  rw [exec_bind_ok hexec]
  rfl

/-- On every platform the listing fails, or lists each path once and in order
and says of each whether its disc has an audio track. -/
theorem listDrives_exec (hhonours : machine.Honours media) (host : Host) (world : World) :
    (∃ err, (machine.listing world).paths = .error err ∧
      (CdReader.listDrives host machine).exec world =
        (.error (.error (.io err)), world ++ [.listed])) ∨
    ∃ paths probes world', (machine.listing world).paths = .ok paths ∧
      (CdReader.listDrives host machine).exec world = (.ok (probes.map Probe.drive), world') ∧
      Found machine media paths probes world world' := by
  unfold CdReader.listDrives
  have hlisted := listDrivePaths_exec machine world
  cases hpaths : (machine.listing world).paths with
  | error err =>
    rw [hpaths] at hlisted
    exact .inl ⟨err, rfl, exec_bind_error hlisted⟩
  | ok paths =>
    right
    rw [hpaths] at hlisted
    rw [exec_bind_ok hlisted]
    have hstart : Listed machine media (world ++ [.listed]) [] [] (world ++ [.listed]) :=
      ⟨[], rfl, rfl, .nil⟩
    rcases exec_foldlM _ _ (listDrive_passes hhonours host _ (dedup (sort paths))) hstart with
      ⟨_, world', hexec, probes, rfl, hdone, hprobed⟩ | ⟨_, _, _, ⟨⟩⟩
    exact ⟨paths, probes, world', rfl, hexec, hprobed.found hdone⟩

/-- The first of the probes that found an audio track is of this path. -/
def FirstAudio (machine : Machine) (media : String → Medium) (probes : List Probe)
    (path : String) : Prop :=
  ∃ before probe after, probes = before ++ probe :: after ∧ probe.path = path ∧
    machine.PlaysAudio media probe.world path ∧
    ∀ earlier ∈ before, ¬ machine.PlaysAudio media earlier.world earlier.path

/-- What opening the default drive comes to, and where that leaves the
machine. -/
inductive Chooses (machine : Machine) (media : String → Medium) (world : World) :
    Except CdReaderError CdReader → World → Prop
  | unlisted (hpaths : (machine.listing world).paths = .error err) :
      Chooses machine media world (.error (.io err)) (world ++ [.listed])
  | nothing (hpaths : (machine.listing world).paths = .ok paths)
      (hfound : Found machine media paths probes world world')
      (hnone : ∀ probe ∈ probes, ¬ machine.PlaysAudio media probe.world probe.path) :
      Chooses machine media world (.error .noUsableDrive) world'
  | refused (hpaths : (machine.listing world).paths = .ok paths)
      (hfound : Found machine media paths probes world world')
      (hfirst : FirstAudio machine media probes path)
      (hopen : machine.openDrive world' path = .error err) :
      Chooses machine media world (.error (.io err)) (world' ++ [.opened path])
  | opened (hpaths : (machine.listing world).paths = .ok paths)
      (hfound : Found machine media paths probes world world')
      (hfirst : FirstAudio machine media probes path)
      (hopen : machine.openDrive world' path = .ok platform) :
      Chooses machine media world (.ok platform.reader) (world' ++ [.opened path])

theorem Probed.none (h : Probed machine media world probes world')
    (hpick : pickDefaultDrive (probes.map Probe.drive) = none) (hmem : probe ∈ probes) :
    ¬ machine.PlaysAudio media probe.world probe.path := by
  rw [← h.found_iff hmem]
  exact List.find?_eq_none.mp hpick probe.drive (List.mem_map_of_mem hmem)

theorem Probed.first {chosen : DriveInfo} (h : Probed machine media world probes world')
    (hpick : pickDefaultDrive (probes.map Probe.drive) = some chosen) :
    FirstAudio machine media probes chosen.path := by
  obtain ⟨haudio, drives, drives', hdrives, hbefore⟩ := List.find?_eq_some_iff_append.mp hpick
  obtain ⟨before, rest, rfl, rfl, hrest⟩ := List.map_eq_append_iff.mp hdrives
  obtain ⟨probe, after, rfl, rfl, -⟩ := List.map_eq_cons_iff.mp hrest
  refine ⟨before, probe, after, rfl, rfl, (h.found_iff (by simp)).mp haudio, ?_⟩
  intro earlier hmem
  rw [← h.found_iff (List.mem_append_left _ hmem)]
  have hnone := hbefore earlier.drive (List.mem_map_of_mem hmem)
  rw [Bool.not_eq_true'] at hnone
  exact Bool.eq_false_iff.mp hnone

/-- Every path is listed once, in order, and probed once; the default drive is
that of the first probe that found an audio track. -/
theorem openDefault_platforms (hhonours : machine.Honours media) (host : Host) (world : World) :
    ∃ result world', (CdReader.openDefault host machine).exec world = (ofResult result, world') ∧
      Chooses machine media world result world' := by
  unfold CdReader.openDefault
  rcases listDrives_exec hhonours host world with
    ⟨err, hpaths, hexec⟩ | ⟨paths, probes, world', hpaths, hexec, hfound⟩
  · exact ⟨.error (.io err), _, exec_bind_error hexec, .unlisted hpaths⟩
  · rw [exec_bind_ok hexec]
    cases hpick : pickDefaultDrive (probes.map Probe.drive) with
    | none =>
      refine ⟨.error .noUsableDrive, world', rfl, .nothing hpaths hfound ?_⟩
      intro probe hmem
      exact hfound.probed.none hpick hmem
    | some chosen =>
      have hfirst := hfound.probed.first hpick
      have hopened := openPath_exec machine chosen.path world'
      cases hopen : machine.openDrive world' chosen.path with
      | error err =>
        rw [hopen] at hopened
        exact ⟨.error (.io err), _, hopened, .refused hpaths hfound hfirst hopen⟩
      | ok platform =>
        rw [hopen] at hopened
        exact ⟨.ok platform.reader, _, hopened, .opened hpaths hfound hfirst hopen⟩

/-- Two paths to drives with the same silent disc. -/
def Machine.silent : Machine where
  listing _ := .linux (some ["sr1", "sda", "sr0"]) false
  openDrive _ _ := .ok .silent

theorem Machine.silent_honours : silent.Honours fun _ => .silent := by
  rintro world path platform ⟨⟩
  exact Platform.silent_honours

theorem openDefault_platforms_silent : ∃ result world',
    (CdReader.openDefault .desktop .silent).exec [] = (ofResult result, world') ∧
      Chooses .silent (fun _ => .silent) [] result world' :=
  openDefault_platforms Machine.silent_honours .desktop []

end

end CdDaReader
