import LintRelay.Process.Pipe
import LintRelay.Process.Program
/-! The state of the system, and what each call does to it. A call is answered at once, or is done
in part, or has to wait until another process has done something. -/
namespace LintRelay.Process

inductive Object where
  | file (place : Location)
  | directory (place : Location)
  | device (d : Device)
  /-- The end of a pipe that is read. -/
  | source (pipe : Nat)
  /-- The end of a pipe that is written. -/
  | sink (pipe : Nat)
  deriving DecidableEq, Repr

/-- Something that was opened. Descriptors that were copied share it. -/
structure OpenFile where
  id : Nat
  object : Object
  mode : OpenMode
  offset : Nat := 0

structure Descriptor where
  fd : Nat
  file : Nat
  /-- Whether another program that the process becomes still has it. -/
  stays : Bool := true
  deriving DecidableEq, Repr

structure Task where
  id : Nat
  parent : Nat
  program : Program
  /-- When the process does its next step. -/
  time : Nat
  cwd : Location
  fds : List Descriptor := []
  ignored : List Nat := []
  caught : List Nat := []
  kept : List Nat := []
  /-- Whether the process does nothing until it is told to go on. -/
  stopped : Bool := false
  /-- The permissions that new files do not get. -/
  mask : Nat := 18
  /-- The limits that are not the usual ones. -/
  limits : List (Resource × Limit) := []
  /-- How long the process has computed, in nanoseconds. -/
  used : Nat := 0
  /-- How the process will end at its next step, after a signal. -/
  doomed : Option Ending := none
  ended : Option Ending := none

structure Kernel where
  files : FileSystem
  /-- When files were changed, in nanoseconds since 1970; those that were not are older. -/
  changed : List (Location × Int) := []
  opened : List OpenFile := []
  pipes : List Pipe := []
  tasks : List Task := []
  clock : Nat := 0
  next : Nat := 100

def startOfTime : Int := 1767225600 * Int.pow 10 9

def usualLimit : Resource → Limit
  | .stack => ⟨some 8388608, none⟩
  | .core => ⟨some 0, none⟩
  | .locked => ⟨some 8388608, some 8388608⟩
  | .descriptors => ⟨some 1048576, some 1048576⟩
  | .priority => ⟨some 0, some 0⟩
  | _ => {}

def initId : Nat := 1

def outsideId : Nat := 2

/-- The process that feeds the first one. No signal reaches it. -/
def feederId : Nat := 0

inductive Step where
  | answer (r : Reply) (t : Task) (k : Kernel)
  /-- A part is done; this remains. -/
  | again (c : Call) (t : Task) (k : Kernel)
  | blocked
  /-- The process has ended over it. -/
  | ended (how : Ending) (k : Kernel)

def maxArgument : Nat := 131072

def maxArguments : Nat := 2097152

def areTooLong (path : Octets) (args env : List Octets) : Bool :=
  let strings := args ++ env
  strings.any (fun s => maxArgument ≤ s.length) ||
    maxArguments < strings.foldl (fun n s => n + s.length + 9) (path.length + 1)

def sigKill : Nat := 9

def sigPipe : Nat := 13

def sigChild : Nat := 17

def sigContinue : Nat := 18

def sigStop : Nat := 19

def sigTimeLimit : Nat := 24

def sigSizeLimit : Nat := 25

/-- Signals that do nothing unless they are caught. Those of a terminal stop no process that no
terminal belongs to. -/
def idleSignals : List Nat := [0, 17, 18, 20, 21, 22, 23, 28]

namespace Task

def descriptor? (t : Task) (fd : Nat) : Option Descriptor := t.fds.find? (·.fd == fd)

def freeFd (t : Task) (least : Nat) : Nat :=
  ((List.range (t.fds.length + 1)).map (· + least)).find? (fun fd => (t.descriptor? fd).isNone)
    |>.getD least

def limit (t : Task) (r : Resource) : Limit := (t.limits.lookup r).getD (usualLimit r)

def setLimit (t : Task) (r : Resource) (l : Limit) : Task :=
  { t with limits := (r, l) :: t.limits.filter (·.1 != r) }

/-- How much slower a process has become that has computed for long. -/
def slowness (t : Task) : Nat :=
  if t.used < Nat.pow 10 8 then 1 else if t.used < Nat.pow 10 9 then 5
  else if t.used < Nat.pow 10 10 then 50 else 500

def mayHave (t : Task) (fd : Nat) : Bool := (t.limit .descriptors).soft.all (fd < ·)

def drop (t : Task) (fd : Nat) : Task := { t with fds := t.fds.filter (·.fd != fd) }

def add (t : Task) (d : Descriptor) : Task := { t.drop d.fd with fds := d :: (t.drop d.fd).fds }

end Task

namespace Kernel

def file? (k : Kernel) (t : Task) (fd : Nat) : Option OpenFile := do
  let d ← t.descriptor? fd
  k.opened.find? (·.id == d.file)

def pipe? (k : Kernel) (id : Nat) : Option Pipe := k.pipes.find? (·.id == id)

def setPipe (k : Kernel) (p : Pipe) : Kernel :=
  { k with pipes := k.pipes.map fun q => if q.id == p.id then p else q }

def setFile (k : Kernel) (f : OpenFile) : Kernel :=
  { k with opened := k.opened.map fun g => if g.id == f.id then f else g }

def setTask (k : Kernel) (t : Task) : Kernel :=
  { k with tasks := k.tasks.map fun u => if u.id == t.id then t else u }

def task? (k : Kernel) (id : Nat) : Option Task := k.tasks.find? (·.id == id)

def hasWriter (k : Kernel) (pipe : Nat) : Bool := k.opened.any (·.object == .sink pipe)

def hasReader (k : Kernel) (pipe : Nat) : Bool := k.opened.any (·.object == .source pipe)

/-- Forgets what no descriptor leads to any more. -/
def sweep (k : Kernel) : Kernel :=
  let used := k.tasks.flatMap fun t => t.fds.map (·.file)
  let opened := k.opened.filter fun f => used.contains f.id
  let pipes := k.pipes.filter fun p =>
    p.drained || opened.any fun f => f.object == .source p.id || f.object == .sink p.id
  { k with opened, pipes }

def now (k : Kernel) : Int := startOfTime + k.clock

def touchAt (k : Kernel) (place : Location) (time : Int) : Kernel :=
  { k with changed := (place, time) :: k.changed.filter (·.1 != place) }

def putFile (k : Kernel) (place : Location) (data : Bytes) : Kernel :=
  { k with files := k.files.put place (.file data) }.touchAt place k.now

/-- Creates a file, which changes the directory too. -/
def createFile (k : Kernel) (place : Location) : Kernel :=
  (k.putFile place []).touchAt place.dropLast k.now

/-- When a file was changed. What nobody has changed was there before the first process, and programs
and devices long before. -/
def changedAt (k : Kernel) (place : Location) (entry : Entry) : Int :=
  match k.changed.lookup place with
  | some time => time
  | none =>
    match entry with
    | .file _ | .directory => startOfTime - Int.pow 10 9
    | .program _ | .device _ => startOfTime - Int.pow 10 17

def content (k : Kernel) (place : Location) : Bytes :=
  match k.files.get? place with
  | some (.file data) => data
  | _ => []

def infoAt (k : Kernel) (place : Location) (entry : Entry) : FileInfo :=
  let changed := k.changedAt place entry
  match entry with
  | .directory => ⟨.directory, place, 4096, true, changed⟩
  | .file data => ⟨.regular, place, data.length, false, changed⟩
  | .program _ => ⟨.regular, place, 100000, true, changed⟩
  | .device _ => ⟨.character, place, 0, false, changed⟩

def deviceName : Device → Bytes
  | .null => Bytes.ofString "null"
  | .zero => Bytes.ofString "zero"
  | .full => Bytes.ofString "full"
  | .descriptor _ => Bytes.ofString "fd"

def infoOfFile (k : Kernel) (f : OpenFile) : FileInfo :=
  match f.object with
  | .file place => k.infoAt place ((k.files.get? place).getD .directory)
  | .directory place => k.infoAt place .directory
  | .device d => ⟨.character, [Bytes.ofString "dev", deviceName d], 0, false, 0⟩
  | .source id => ⟨.pipe, [Bytes.ofString "pipe", Octets.bytes (Octets.ofNat id)], 0, false, 0⟩
  | .sink id => ⟨.pipe, [Bytes.ofString "pipe", Octets.bytes (Octets.ofNat id)], 0, false, 0⟩

/-- The names in a directory. Those of descriptors are there for as long as these are open, as is the
one with which the directory is being read. -/
def namesIn (k : Kernel) (t : Task) (place : List Bytes) : List Bytes :=
  (k.files.namesIn place).filter fun name =>
    match k.files.get? (place ++ [name]) with
    | some (.device (.descriptor fd)) =>
      fd ≤ 2 || (t.descriptor? fd).isSome || fd == t.freeFd 0
    | _ => true

def pathOf (path : Octets) : Path := ⟨Octets.bytes path⟩

def resolve (k : Kernel) (t : Task) (path : Octets) : Except IoError Target :=
  k.files.resolve t.cwd (pathOf path)

def info (k : Kernel) (t : Task) (path : Octets) : Except IoError FileInfo := do
  match ← k.resolve t path with
  | .free _ => throw .noEntry
  | .found _ (.device (.descriptor fd)) =>
    match k.file? t fd with
    | some f => return k.infoOfFile f
    | none => throw .noEntry
  | .found place entry => return k.infoAt place entry

def install (k : Kernel) (t : Task) (object : Object) (mode : OpenMode) :
    Except IoError (Nat × Task × Kernel) :=
  let fd := t.freeFd 0
  if t.mayHave fd then
    .ok (fd, t.add ⟨fd, k.next, true⟩,
      { k with opened := ⟨k.next, object, mode, 0⟩ :: k.opened, next := k.next + 1 })
  else .error .tooManyFiles

/-- What opening the descriptor of the process itself leads to: the same object once more. -/
def reopened (object : Object) (mode : OpenMode) : Object :=
  match object with
  | .source id => if mode.writes then .sink id else .source id
  | .sink id => if mode.writes then .sink id else .source id
  | object => object

def openFile (k : Kernel) (t : Task) (path : Octets) (mode : OpenMode) :
    Except IoError (Nat × Task × Kernel) := do
  if !t.mayHave (t.freeFd 0) then throw .tooManyFiles
  let p := pathOf path
  let target ← if mode.creates then k.files.resolveNew t.cwd p else k.files.resolve t.cwd p
  match target with
  | .free place =>
    if mode.creates then (k.createFile place).install t (.file place) mode
    else throw .noEntry
  | .found place .directory =>
    if mode.fresh then throw .fileExists
    if mode.writes || mode.creates then throw .isDirectory
    k.install t (.directory place) mode
  | .found place (.file _) =>
    if mode.fresh then throw .fileExists
    let k := if mode.truncates then k.putFile place [] else k
    k.install t (.file place) mode
  | .found _ (.device (.descriptor fd)) =>
    match k.file? t fd with
    | none => throw .noEntry
    | some f =>
      let k :=
        match f.object with
        | .file place => if mode.truncates then k.putFile place [] else k
        | _ => k
      k.install t (reopened f.object mode) mode
  | .found _ (.device d) => k.install t (.device d) mode
  | .found place (.program _) =>
    if mode.writes then throw .accessDenied
    k.install t (.file place) mode

def splice (old : Bytes) (offset : Nat) (new : Bytes) : Bytes :=
  old.take offset ++ List.replicate (offset - old.length) 0 ++ new ++ old.drop (offset + new.length)

def readCall (k : Kernel) (t : Task) (fd : Nat) (count : Option Nat) (last : Char) : Step :=
  match k.file? t fd with
  | none => .answer (.failed .badDescriptor) t k
  | some f =>
    if !f.mode.reads then .answer (.failed .badDescriptor) t k
    else
      match f.object with
      | .directory _ => .answer (.failed .isDirectory) t k
      | .device .null => .answer (.data []) t k
      | .device _ => .answer (.data (List.replicate (count.getD 1) '\x00')) t k
      | .sink _ => .answer (.failed .badDescriptor) t k
      | .file place =>
        let rest := (k.content place).drop f.offset
        let text :=
          match count with
          | some n => octets (rest.take n)
          | none =>
            let before := rest.takeWhile (· != UInt8.ofNat last.toNat)
            octets (rest.take (before.length + 1))
        .answer (.data text) t (k.setFile { f with offset := f.offset + text.length })
      | .source id =>
        match k.pipe? id with
        | none => .answer (.data []) t k
        | some p =>
          if p.isEmpty then
            if k.hasWriter id then .blocked else .answer (.data []) t k
          else
            let (text, p) := p.get (count.getD (p.through last))
            .answer (.data text) t (k.setPipe p)

/-- What a signal does to a process: nothing, or it is kept, or it ends the process. -/
def effect (t : Task) (signal : Nat) : Option Ending × Task :=
  let t := if signal == sigContinue then { t with stopped := false } else t
  if signal == sigKill then (some (.killed signal), t)
  else if signal == sigStop then (none, { t with stopped := true })
  else if t.ignored.contains signal then (none, t)
  else if t.caught.contains signal then (none, { t with kept := t.kept ++ [signal] })
  else if idleSignals.contains signal then (none, t)
  else (some (.killed signal), t)

def writeCall (k : Kernel) (t : Task) (fd : Nat) (data : Octets) : Step :=
  match k.file? t fd with
  | none => .answer (.failed .badDescriptor) t k
  | some f =>
    if !f.mode.writes then .answer (.failed .badDescriptor) t k
    else
      match f.object with
      | .directory _ => .answer (.failed .isDirectory) t k
      | .device .full => .answer (.failed .noSpace) t k
      | .device _ => .answer .done t k
      | .source _ => .answer (.failed .badDescriptor) t k
      | .file place =>
        let old := k.content place
        let offset := if f.mode.appends then old.length else f.offset
        let room := ((t.limit .fileSize).soft.map (· - offset)).getD data.length
        let new := Octets.bytes (data.take room)
        let written :=
          (k.putFile place (splice old offset new)).setFile { f with offset := offset + new.length }
        if data.length ≤ room then .answer .done t written
        else if 0 < room then .again (.write fd (data.drop room)) t written
        else
          match effect t sigSizeLimit with
          | (some how, _) => .ended how k
          | (none, t) => .answer (.failed .fileTooLarge) t k
      | .sink id =>
        match k.pipe? id with
        | none => .answer (.failed .brokenPipe) t k
        | some p =>
          if !p.drained && !k.hasReader id then
            match effect t sigPipe with
            | (some how, _) => .ended how k
            | (none, t) => .answer (.failed .brokenPipe) t k
          else
            let (p, rest) := p.put data
            if rest.isEmpty then .answer .done t (k.setPipe p)
            else if rest.length == data.length then .blocked
            else .again (.write fd rest) t (k.setPipe p)

/-- A process ends: what it has open is closed, its parent is told, and its children go to the first
of all processes. -/
def finish (k : Kernel) (t : Task) (how : Ending) : Kernel :=
  let dead := { t with ended := some how, fds := [], program := .exit 0 }
  let adopt (u : Task) : Option Task :=
    if u.id == t.id then (if t.parent == initId then none else some dead)
    else if u.parent == t.id then
      if u.ended.isSome then none else some { u with parent := initId }
    else if u.id == t.parent && u.caught.contains sigChild then
      some { u with kept := u.kept ++ [sigChild] }
    else some u
  { k with tasks := k.tasks.filterMap adopt }.sweep

def waitCall (k : Kernel) (t : Task) (hang alert : Bool) : Step :=
  let children := k.tasks.filter (·.parent == t.id)
  match children.findSome? fun c => c.ended.map (c.id, ·) with
  | some (id, how) =>
    .answer (.ended id how) t { k with tasks := k.tasks.filter (·.id != id) }
  | none =>
    if children.isEmpty then .answer (.failed .noChild) t k
    else if !hang then .answer .done t k
    else if alert && !t.kept.isEmpty then .answer (.failed .interrupted) t k
    else .blocked

def deathTime : Nat := 200000

def notify (k : Kernel) (u : Task) (number : Nat) : Kernel :=
  if u.ended.isSome then k
  else
    match effect u number with
    | (some how, u) =>
      k.setTask { u with
        doomed := some how, program := .exit 0, stopped := false, time := k.clock + deathTime }
    | (none, u) => k.setTask u

/-- Sends a signal to a process, or with zero to all those that belong together. A number below zero
stands for a group of processes, and there are none. -/
def signalCall (k : Kernel) (t : Task) (target : Int) (number : Nat) : Step :=
  let toSelf (k : Kernel) : Step :=
    match effect t number with
    | (some how, _) => .ended how k
    | (none, t) => .answer .done t k
  if target == (t.id : Int) then toSelf k
  else if target == 0 then
    let others := k.tasks.filter fun u => u.id != t.id && u.id != feederId
    toSelf (others.foldl (fun k u => k.notify u number) k)
  else if target == initId || target == outsideId then .answer .done t k
  else
    match k.tasks.find? fun u => (u.id : Int) == target with
    | none => .answer (.failed .noProcess) t k
    | some u => .answer .done t (k.notify u number)

def becomeCall (k : Kernel) (t : Task) (path : Octets) (args env : List Octets) : Step :=
  match k.resolve t path with
  | .error e => .answer (.failed e) t k
  | .ok (.free _) => .answer (.failed .noEntry) t k
  | .ok (.found _ (.program name)) =>
    if areTooLong path args env then .answer (.failed .argumentsTooLong) t k
    else
      let t := { t with fds := t.fds.filter (·.stays), caught := [], kept := [] }
      .answer (.program name) t (k.setTask t).sweep
  | .ok (.found _ _) => .answer (.failed .accessDenied) t k

def answerOf (t : Task) (k : Kernel) (result : Except IoError Reply) : Step :=
  match result with
  | .ok r => .answer r t k
  | .error e => .answer (.failed e) t k

def perform (k : Kernel) (t : Task) (c : Call) : Step :=
  match c with
  | .read fd count => k.readCall t fd (some count) '\n'
  | .readThrough fd last => k.readCall t fd none last
  | .write fd data => k.writeCall t fd data
  | .move fd distance =>
    match k.file? t fd with
    | some f =>
      let offset := (f.offset : Int) + distance
      match f.object with
      | .file _ =>
        if offset < 0 then .answer (.failed .badArgument) t k
        else .answer .done t (k.setFile { f with offset := offset.toNat })
      | .source _ | .sink _ => .answer (.failed .illegalSeek) t k
      | _ => .answer .done t k
    | none => .answer (.failed .badDescriptor) t k
  | .openFile path mode =>
    match k.openFile t path mode with
    | .ok (fd, t, k) => .answer (.number fd) t k
    | .error e => .answer (.failed e) t k
  | .close fd =>
    match t.descriptor? fd with
    | none => .answer (.failed .badDescriptor) t k
    | some _ => .answer .done (t.drop fd) (k.setTask (t.drop fd)).sweep
  | .copy fd target =>
    match t.descriptor? fd with
    | none => .answer (.failed .badDescriptor) t k
    | some d =>
      if !t.mayHave target then .answer (.failed .badDescriptor) t k
      else if fd == target then .answer (.number target) t k
      else
        let t := t.add ⟨target, d.file, true⟩
        .answer (.number target) t (k.setTask t).sweep
  | .keep fd least =>
    match t.descriptor? fd with
    | none => .answer (.failed .badDescriptor) t k
    | some d =>
      let copy := t.freeFd least
      if !t.mayHave least then .answer (.failed .badArgument) t k
      else if !t.mayHave copy then .answer (.failed .tooManyFiles) t k
      else .answer (.number copy) (t.add ⟨copy, d.file, false⟩) k
  | .pipe =>
    let id := k.next
    let k := { k with pipes := { id } :: k.pipes, next := id + 1 }
    let ends := do
      let (r, t, k) ← k.install t (.source id) { reads := true }
      let (w, t, k) ← k.install t (.sink id) { writes := true }
      return (r, w, t, k)
    match ends with
    | .ok (r, w, t, k) => .answer (.numbers r w) t k
    | .error e => .answer (.failed e) t k
  | .info path => answerOf t k ((k.info t path).map .info)
  | .infoOf fd =>
    match k.file? t fd with
    | some f => .answer (.info (k.infoOfFile f)) t k
    | none => .answer (.failed .badDescriptor) t k
  | .offset fd =>
    match k.file? t fd with
    | some f =>
      match f.object with
      | .source _ | .sink _ => .answer (.failed .illegalSeek) t k
      | _ => .answer (.number f.offset) t k
    | none => .answer (.failed .badDescriptor) t k
  | .list path =>
    match k.resolve t path with
    | .error e => .answer (.failed e) t k
    | .ok (.found place .directory) => .answer (.names ((k.namesIn t place).map octets)) t k
    | .ok (.found _ _) => .answer (.failed .notDirectory) t k
    | .ok (.free _) => .answer (.failed .noEntry) t k
  | .enter path =>
    match k.resolve t path with
    | .error e => .answer (.failed e) t k
    | .ok (.found place .directory) => .answer .done { t with cwd := place } k
    | .ok (.found _ _) => .answer (.failed .notDirectory) t k
    | .ok (.free _) => .answer (.failed .noEntry) t k
  | .place => .answer (.place t.cwd) t k
  | .self => .answer (.numbers t.id t.parent) t k
  | .become path args env => k.becomeCall t path args env
  | .wait hang alert => k.waitCall t hang alert
  | .signal target number => k.signalCall t target number
  | .onSignal number action =>
    let ignored := t.ignored.filter (· != number)
    let caught := t.caught.filter (· != number)
    match action with
    | .usual => .answer .done { t with ignored, caught } k
    | .ignore => .answer .done { t with ignored := number :: ignored, caught } k
    | .catch => .answer .done { t with ignored, caught := number :: caught } k
  | .kept => .answer (.signals t.kept) { t with kept := [] } k
  | .ignored => .answer (.signals t.ignored) t k
  | .sleep nanos => .answer .done { t with time := max t.time k.clock + nanos } k
  | .spend nanos =>
    let nanos := nanos * t.slowness
    .answer .done { t with time := max t.time k.clock + nanos, used := t.used + nanos } k
  | .stamp path time =>
    match k.resolve t path with
    | .error e => .answer (.failed e) t k
    | .ok (.free _) => .answer (.failed .noEntry) t k
    | .ok (.found place _) => .answer .done t (k.touchAt place (time.getD k.now))
  | .now => .answer (.time k.now) t k
  | .mask new => .answer (.number t.mask) { t with mask := new.getD t.mask } k
  | .limit r => .answer (.limit (t.limit r)) t k
  | .setLimit r l =>
    let exceeds (a b : Option Nat) : Bool :=
      match a, b with
      | none, some _ => true
      | some m, some n => n < m
      | _, none => false
    if exceeds l.soft l.hard then .answer (.failed .badArgument) t k
    else if exceeds l.hard (t.limit r).hard then .answer (.failed .notPermitted) t k
    else .answer .done (t.setLimit r l) k

end Kernel
end LintRelay.Process
