import PipelineWaves.Sandbox.FileUtility

/-!
# Archives

An archive holds files, links and directories with their paths. It is written
as bytes that begin with the mark of compressed data, and reading what was
written gives the members back.
-/

set_option autoImplicit false

namespace PipelineWaves.Sandbox

inductive ArchiveMember where
  | directory (path : String)
  | link (path target : String)
  | file (path : String) (executable : Bool) (contents : ByteArray)

namespace Archive

/-- The two bytes at the front of compressed data. -/
def mark : List UInt8 := [0x1f, 0x8b]

/-- A length in eight bytes, the lowest first. -/
def lengthBytes (length : Nat) : List UInt8 :=
  (List.range 8).map fun index => UInt8.ofNat (length / Nat.pow 256 index % 256)

def block (bytes : List UInt8) : List UInt8 := lengthBytes bytes.length ++ bytes

def memberBytes : ArchiveMember → List UInt8
  | .directory path => 0 :: block path.toUTF8.toList ++ block []
  | .link path target => 1 :: block path.toUTF8.toList ++ block target.toUTF8.toList
  | .file path executable contents =>
      (if executable then 3 else 2) :: block path.toUTF8.toList ++ block contents.toList

def bytes (members : List ArchiveMember) : ByteArray :=
  ⟨(mark ++ members.flatMap memberBytes).toArray⟩

def lengthOf (bytes : List UInt8) : Nat :=
  bytes.foldr (fun byte length => byte.toNat + 256 * length) 0

def takeBlock (bytes : List UInt8) : Option (List UInt8 × List UInt8) :=
  let length := lengthOf (bytes.take 8)
  let rest := bytes.drop 8
  if bytes.length < 8 || rest.length < length then none
  else some (rest.take length, rest.drop length)

def textOf (bytes : List UInt8) : String := Text.ofBytes ⟨bytes.toArray⟩

def memberOf (kind : UInt8) (path contents : List UInt8) : ArchiveMember :=
  if kind = 0 then .directory (textOf path)
  else if kind = 1 then .link (textOf path) (textOf contents)
  else .file (textOf path) (kind = 3) ⟨contents.toArray⟩

/-- Reads members, at most so many. -/
def membersFrom : Nat → List UInt8 → Option (List ArchiveMember)
  | _, [] => some []
  | 0, _ => none
  | most + 1, kind :: rest =>
      match takeBlock rest with
      | none => none
      | some (path, rest) =>
          match takeBlock rest with
          | none => none
          | some (contents, rest) =>
              (membersFrom most rest).map fun members => memberOf kind path contents :: members

/-- The members of an archive; nothing if the bytes are none. -/
def members? (bytes : ByteArray) : Option (List ArchiveMember) :=
  let all := bytes.toList
  if all.take 2 = mark then membersFrom all.length (all.drop 2) else none

mutual

/-- A node and everything in it under a path. -/
def membersOf (path : String) : FileNode → List ArchiveMember
  | .file contents executable => [.file path executable contents]
  | .link target => [.link path target]
  | .directory entries => .directory path :: membersOfAll path entries

def membersOfAll (path : String) : List (String × FileNode) → List ArchiveMember
  | [] => []
  | (name, node) :: rest => membersOf (path ++ "/" ++ name) node ++ membersOfAll path rest

end

def extractMember (base : FilePath) (member : ArchiveMember) : FileCall Unit := do
  let parentMade (path : FilePath) : FileCall Unit :=
    match path.parent? with
    | some parent => Files.createDirectories parent
    | none => pure ()
  match member with
  | .directory path => Files.createDirectories (base.join ⟨path⟩)
  | .link path target => do
      let path := base.join ⟨path⟩
      parentMade path
      (Files.removeFile path).ignoringFailure
      Files.createLink path target
  | .file path executable contents => do
      let path := base.join ⟨path⟩
      parentMade path
      (Files.removeFile path).ignoringFailure
      Files.writeBytes path contents
      Files.setExecutable path executable

structure Order where
  creates : Bool
  archive : Option String
  directory : String
  paths : List String

/-- Reads options such as `-czf archive -C directory`, then the paths. -/
def orderFrom (order : Order) : List String → Order
  | "-C" :: directory :: rest => orderFrom { order with directory } rest
  | word :: rest =>
      match word.toList with
      | '-' :: letters =>
          let order := { order with creates := order.creates || letters.contains 'c' }
          if letters.contains 'f' then
            match rest with
            | archive :: rest => orderFrom { order with archive := some archive } rest
            | [] => order
          else orderFrom order rest
      | _ => orderFrom { order with paths := order.paths ++ [word] } rest
  | [] => order

def withoutSlash (path : String) : String :=
  String.ofList (path.toList.dropWhile fun c => c = '/')

def create (order : Order) (archive : String) (working : Working) : UtilityResult :=
  let base : FilePath := ⟨order.directory⟩
  let (working, members) := order.paths.foldl
    (fun (working, members) path =>
      match working.files.ownLocation (base.join ⟨path⟩) with
      | .ok (_, node) => (working, members ++ membersOf (withoutSlash path) node)
      | .error fault =>
          (working.complain 2 s!"tar: {path}: Cannot stat: {fault.reason}", members))
    ((working, []) : Working × List ArchiveMember)
  let working := working.call (Files.writeBytes ⟨archive⟩ (bytes members)) fun fault =>
    s!"tar ({archive}): Cannot open: {fault.reason}"
  if working.code = 0 then working.result
  else
    ((working.ending 2).complain 2
      "tar: Exiting with failure status due to previous errors").result

def extract (order : Order) (archive : String) (working : Working) : UtilityResult :=
  match working.files.bytes ⟨archive⟩ with
  | .error fault =>
      (((working.complain 2 s!"tar ({archive}): Cannot open: {fault.reason}").complain 2
        "tar: Error is not recoverable: exiting now")).result
  | .ok contents =>
      match members? contents with
      | none =>
          (((working.complain 2 "\ngzip: stdin: not in gzip format").complain 2
            "tar: Child returned status 1").complain 2
            "tar: Error is not recoverable: exiting now").result
      | some members =>
          (members.foldl
            (fun working member =>
              working.call (extractMember ⟨order.directory⟩ member) fun fault =>
                s!"tar: Cannot open: {fault.reason}")
            working).result

def tar (call : UtilityCall) : UtilityResult :=
  let order := orderFrom ⟨false, none, ".", []⟩ call.arguments
  let working := Working.start call
  match order.archive with
  | none => (working.complain 2 "tar: Refusing to read archive contents from terminal").result
  | some archive =>
      if order.creates then create order archive working else extract order archive working

end Archive

end PipelineWaves.Sandbox
