import Callsite.Abort
import Callsite.Path
import Callsite.Scan

/-!
# Reading archives

An archive is read entry by entry, so a reading has two parts: the classes that came out, and how it
ended. A file with the suffix `.class` is an archive of one entry; any other is a container.
-/

namespace Callsite

/-- Why an archive, or a directory of archives, cannot be read. -/
inductive ArchiveFault
  | file (path : Path) (error : SystemError)
  | container (path : Path) (error : SystemError)
  | format (path : Path) (error : Container.Error)
  | entry (path : Path) (name : Text) (error : Container.Error)
  | directory (path : Path) (error : SystemError)

namespace ArchiveFault

def kind : Text := "ArchiveReadError"

def message : ArchiveFault → Text
  | .file path error => "cannot read " ++ path.render ++ ": " ++ error.message
  | .container path error => "cannot open " ++ path.render ++ ": " ++ error.message
  | .format path error => "cannot open " ++ path.render ++ ": " ++ error.message
  | .entry path name error =>
    "cannot read " ++ name ++ " in " ++ path.render ++ ": " ++ error.message
  | .directory path error => "cannot list " ++ path.render ++ ": " ++ error.message

/-- The failure that skips the archive. -/
def failure (archive : Text) (fault : ArchiveFault) : Failure :=
  { scope := Failure.archiveScope, unit := archive, kind, message := fault.message }

end ArchiveFault

inductive Ending
  | complete
  | unreadable (fault : ArchiveFault)
  | aborted (cause : Abort)

/-- How a reading ends where a container raises an error. -/
def Ending.ofError (site : Container.Site) (fault : Container.Error → ArchiveFault)
    (error : Container.Error) : Ending :=
  if error.kind ∈ site.handled then .unreadable (fault error) else .aborted (.archive error)

structure Reading where
  entries : List Entry
  ending : Ending

namespace Reading

def classSuffix : Text := ".class"

/-- The classes among the members of a container, up to the first that cannot be read. -/
def ofMembers (path : Path) : List Container.Member → Reading
  | [] => ⟨[], .complete⟩
  | m :: rest =>
    match m.isDirectory with
    | .error error => ⟨[], .ofError .kind (.entry path m.name) error⟩
    | .ok isDirectory =>
      if isDirectory || !m.name.endsWith classSuffix then ofMembers path rest
      else
        match m.content () with
        | .error error => ⟨[], .ofError .content (.entry path m.name) error⟩
        | .ok content =>
          let reading := ofMembers path rest
          let entry : Entry :=
            { name := m.name
              data := content
              reading := some ("Read " ++ m.name ++ " (" ++ Text.ofNat content.length ++
                " bytes) from " ++ path.name) }
          { reading with entries := entry :: reading.entries }

def ofContainer (containers : Container.Reader) (path : Path) (content : List UInt8) : Reading :=
  match containers content with
  | .error error => ⟨[], .ofError .opening (.format path) error⟩
  | .ok members => ofMembers path members

def isBareClass (path : Path) : Bool := path.suffix = classSuffix

/-- The reading of an archive, given what its file holds. -/
def ofFile (containers : Container.Reader) (path : Path) :
    Except SystemError (List UInt8) → Reading
  | .ok content =>
    if isBareClass path then ⟨[{ name := path.name, data := content }], .complete⟩
    else ofContainer containers path content
  | .error error =>
    ⟨[], .unreadable (if isBareClass path then .file path error else .container path error)⟩

def ofPath [Monad m] [FileStore m] (containers : Container.Reader) (path : Path) : m Reading := do
  match FileName.check path.render with
  | .error fault => return ⟨[], .aborted (.path fault)⟩
  | .ok _ => return ofFile containers path (← FileStore.read path.render)

end Reading

end Callsite
