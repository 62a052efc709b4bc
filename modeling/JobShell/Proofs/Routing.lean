import Mathlib
import JobShell.Proofs.Appending
import JobShell.Shell

/-!
# Which logs a record reaches

A logger is added for a path of names, and takes the records whose targets are
that path or lie below it. A route decides this on texts: it compares a target
with a slice of its scope, or looks for the scope in front of the target. For all
texts this is the same (`Log.accepts_ofTarget_iff`).

`Host.Adds` is what adding loggers does to a host, by induction on their list.
Every logger serves its outlet in the end, also when another one was added for
the same file later, since a path that was opened leads where it led. What whole
histories of records leave in the files follows from that (`Host.Logged`).
-/

namespace JobShell

open Machine (NodeId Endpoint OpenMode)

namespace Log

/-! ## Prefixes -/

/-- What stands between the names of a path. -/
def separator : String := "::"

/-- Whether a separator stands at the end of a path. -/
def EndsInSeparator (path : String) : Prop := separator.toList <:+ path.toList

instance (path : String) : Decidable (EndsInSeparator path) := inferInstanceAs (Decidable (_ <:+ _))

/-- A path without the separator at its end, if there is one. -/
def stem (path : String) : String :=
  if EndsInSeparator path then String.ofList path.toList.dropLast.dropLast else path

/-- Whether a target is a path itself or lies below it. -/
def Within (path target : String) : Prop :=
  target = path ∨ ∃ below, target = path ++ separator ++ below

theorem within_iff {path target : String} :
    Within path target ↔ target = path ∨ (path ++ separator).toList <+: target.toList := by
  refine or_congr_right ⟨?_, ?_⟩
  · rintro ⟨below, rfl⟩
    exact ⟨below.toList, by simp⟩
  · rintro ⟨below, hbelow⟩
    refine ⟨String.ofList below, String.toList_inj.mp ?_⟩
    rw [String.toList_append, String.toList_ofList, hbelow]

instance (path target : String) : Decidable (Within path target) :=
  decidable_of_iff _ within_iff.symm

theorem endsInSeparator_append (path : String) : EndsInSeparator (path ++ separator) := by
  rw [EndsInSeparator, String.toList_append]
  exact List.suffix_append ..

theorem stem_append (path : String) : stem (path ++ separator) = path := by
  have hdropped : (path ++ separator).toList.dropLast.dropLast = path.toList := by
    simp [separator]
  rw [stem, if_pos (endsInSeparator_append path), hdropped, String.ofList_toList]

theorem stem_of_not {path : String} (h : ¬EndsInSeparator path) : stem path = path := if_neg h

theorem eq_stem_append {path : String} (h : EndsInSeparator path) :
    path = stem path ++ separator := by
  obtain ⟨front, hfront⟩ := h
  have hpath : path = String.ofList front ++ separator :=
    String.toList_inj.mp (by rw [String.toList_append, String.toList_ofList, hfront])
  rw [hpath, stem_append]

/-- A longer target lies below a path only behind a separator. -/
theorem within_append_iff {path more : String} :
    Within path (path ++ more) ↔ more = "" ∨ separator.toList <+: more.toList := by
  rw [within_iff, String.toList_append, String.toList_append, List.prefix_append_right_inj]
  refine or_congr_left ?_
  rw [← String.toList_inj, String.toList_append, List.append_right_eq_self,
    String.toList_eq_nil_iff]

/-! ## Routes -/

/-- The scope of a route is the stem of its target with one separator. -/
theorem ofTarget_eq (name : String) (sink : Sink) :
    Route.ofTarget name sink = ⟨stem name ++ separator, sink⟩ := by
  by_cases hends : EndsInSeparator name
  · rw [← eq_stem_append hends]
    exact if_pos hends
  · rw [stem_of_not hends]
    exact if_neg hends

/-- The slice in front of a scope's last two bytes is the stem. -/
theorem stem?_ofTarget (name : String) (sink : Sink) :
    (Route.ofTarget name sink).stem? = some (stem name) := by
  have hbytes : (Bytes.ofString separator).length = 2 := by decide
  rw [ofTarget_eq, Route.stem?]
  dsimp only
  rw [Bytes.ofString_append, List.length_append, hbytes, if_pos (Nat.le_add_left 2 _),
    Nat.add_sub_cancel, List.take_left', Bytes.text?_ofString]
  rfl

theorem accepts_ofTarget_iff {name target : String} {sink : Sink} :
    (Route.ofTarget name sink).accepts target = true ↔ Within (stem name) target := by
  rw [Route.accepts, stem?_ofTarget, ofTarget_eq, within_iff, Bool.or_eq_true, decide_eq_true_iff,
    List.isPrefixOf_iff_prefix, Option.some.injEq, eq_comm]

example : (Route.ofTarget "::" (.file 3)).accepts "" ∧ (Route.ofTarget "" (.file 3)).accepts "::é"
    ∧ ¬(Route.ofTarget "é" (.file 3)).accepts "é:" := by decide +kernel

theorem ofTarget_append {name : String} (h : ¬EndsInSeparator name) (sink : Sink) :
    Route.ofTarget (name ++ separator) sink = .ofTarget name sink := by
  rw [ofTarget_eq, ofTarget_eq, stem_append, stem_of_not h]

/-! ## Lines -/

/-- The line an outlet makes of a record: the message behind the label for the
user, and behind the level in five columns anywhere else. -/
def Outlet.line (outlet : Outlet) (r : Record) : String :=
  match outlet with
  | user label => label ++ r.message ++ "\n"
  | file _ => String.ofList (r.level.name.toList.rightpad 5 ' ') ++ " " ++ r.message ++ "\n"

theorem Level.column_eq (l : Level) : l.column = String.ofList (l.name.toList.rightpad 5 ' ') := by
  cases l <;> rfl

end Log

/-! ## Loggers that were added -/

/-- A logger that was added, with the descriptor its lines are written to. -/
structure AddedLogger where
  name : String
  outlet : Log.Outlet
  fd : Fd

namespace AddedLogger

def sink (a : AddedLogger) : Log.Sink :=
  match a.outlet with
  | .user label => .user label
  | .file _ => .file a.fd

def route (a : AddedLogger) : Log.Route := .ofTarget a.name a.sink

/-- The logger as it was asked for. -/
def request (a : AddedLogger) : String × Log.Outlet := (a.name, a.outlet)

theorem line_sink (a : AddedLogger) (r : Log.Record) : a.sink.line r = a.outlet.line r := by
  unfold sink
  cases a.outlet with
  | user label => rfl
  | file path => rw [Log.Outlet.line, ← Log.Level.column_eq]; rfl

/-- The lines that loggers make of a record, in the order in which they were
added. -/
def lines (added : List AddedLogger) (r : Log.Record) : List (Fd × String) :=
  (added.filter fun a => Log.Within (Log.stem a.name) r.target).map
    fun a => (a.fd, a.outlet.line r)

end AddedLogger

/-- The loggers that the shell starts with. -/
def Shell.ownLoggers (label : String) (devLog : Option String) : List (String × Log.Outlet) :=
  (Log.userTarget, .user label)
    :: devLog.toList.map fun path => (Log.devTarget, .file (.ofString path))

namespace Host

variable {h h' opened : Host} {directory : NodeId}

/-- Where the lines for an outlet get to: what is behind the second stream, or
what the path leads to. -/
def destination? (h : Host) (directory : NodeId) : Log.Outlet → Option Endpoint
  | .user _ => h.endpoint? 2
  | .file path => h.leadsTo? directory path

/-- The descriptor of a logger is that of the user, or one that appends to
what the path leads to. -/
structure Serves (h : Host) (directory : NodeId) (a : AddedLogger) : Prop where
  endpoint : h.endpoint? a.fd = h.destination? directory a.outlet
  user : ∀ label, a.outlet = .user label → a.fd = 2
  file : ∀ path, a.outlet = .file path →
    (h.endpoint? a.fd).isSome ∧ h.mode? a.fd = some .append

theorem serves_user (h : Host) (directory : NodeId) (name label : String) :
    h.Serves directory ⟨name, .user label, 2⟩ := ⟨rfl, fun _ _ => rfl, nofun⟩

theorem OpensAppending.serves {path : Bytes} {fd : Fd}
    (hopens : h.OpensAppending directory path fd h') (name : String) (hlater : h'.Grows opened) :
    opened.Serves directory ⟨name, .file path, fd⟩ := by
  obtain ⟨endpoint, hendpoint, hleads⟩ := hopens.leads opened hlater
  refine ⟨hendpoint.trans hleads.symm, nofun, fun _ _ => ⟨?_, hlater.mode?_eq hopens.mode⟩⟩
  rw [hendpoint]
  rfl

/-- Adding loggers keeps what there is, and all of them serve in the end. -/
structure Adds (h : Host) (directory : NodeId) (added : List AddedLogger) (h' : Host) : Prop where
  grows : h.Grows h'
  contents : ∀ id, h'.contents id = h.contents id
  logger : h'.logger = h.logger ++ added.map AddedLogger.route
  serves : ∀ a ∈ added, h'.Serves directory a

theorem logger_of_openFile {path : Bytes} {mode : OpenMode} {fd : Fd}
    (hok : h.openFile directory path mode = .ok (fd, h')) : h'.logger = h.logger := by
  obtain ⟨_, _, _, _, _, rfl⟩ := parts_of_openFile hok
  rfl

theorem grows_addRoute (h : Host) (target : String) (sink : Log.Sink) :
    h.Grows (h.addRoute target sink) where
  extends_ := ⟨.refl _, rfl, .refl 0 _⟩
  mode _ _ hmode := hmode
  tree := .refl _

/-- What adding one logger does, seen from any later state. -/
theorem added_of_addLogger {name : String} {outlet : Log.Outlet}
    (hok : h.addLogger directory name outlet = .ok h') :
    ∃ a : AddedLogger, a.request = (name, outlet) ∧ h.Grows h'
      ∧ (∀ id, h'.contents id = h.contents id) ∧ h'.logger = h.logger ++ [a.route]
      ∧ ∀ opened, h'.Grows opened → opened.Serves directory a := by
  cases outlet with
  | user label =>
      obtain rfl := Except.ok.inj hok
      exact ⟨⟨name, .user label, 2⟩, rfl, grows_addRoute .., fun _ => rfl, rfl,
        fun opened _ => serves_user opened directory name label⟩
  | file path =>
      obtain ⟨⟨fd, between⟩, hopen, hadd⟩ := Except.bind_eq_ok_iff.mp hok
      obtain rfl := Except.ok.inj hadd
      have hopens := opensAppending_of_openFile hopen
      have hroute := grows_addRoute between name (.file fd)
      refine ⟨⟨name, .file path, fd⟩, rfl, hopens.grows.trans hroute, hopens.contents, ?_,
        fun opened hlater => hopens.serves name (hroute.trans hlater)⟩
      rw [addRoute, logger_of_openFile hopen]
      rfl

theorem adds_of_addLoggers {loggers : List (String × Log.Outlet)}
    (hok : h.addLoggers directory loggers = .ok opened) :
    ∃ added, added.map AddedLogger.request = loggers ∧ h.Adds directory added opened := by
  induction loggers generalizing h with
  | nil =>
      obtain rfl := Except.ok.inj hok
      exact ⟨[], rfl, .refl h, fun _ => rfl, (List.append_nil _).symm, nofun⟩
  | cons logger rest ih =>
      obtain ⟨between, hadd, hrest⟩ := Except.bind_eq_ok_iff.mp hok
      obtain ⟨a, hrequest, hgrows, hcontents, hlogger, hserves⟩ := added_of_addLogger hadd
      obtain ⟨added, hrequests, hadds⟩ := ih hrest
      refine ⟨a :: added, ?_, ?_⟩
      · rw [List.map_cons, hrequest, hrequests]
      · exact
          { grows := hgrows.trans hadds.grows
            contents := fun id => (hadds.contents id).trans (hcontents id)
            logger := by
              rw [hadds.logger, hlogger, List.append_assoc]
              rfl
            serves := List.forall_mem_cons.mpr ⟨hserves opened hadds.grows, hadds.serves⟩ }

/-! ## Records -/

/-- What a record adds to a file: the lines of the loggers in whose scope its
target is and that write to this file, in the order in which they were added. -/
def linesFor (h : Host) (directory : NodeId) (loggers : List (String × Log.Outlet)) (id : NodeId)
    (r : Log.Record) : Bytes :=
  (loggers.filter fun logger => Log.Within (Log.stem logger.1) r.target
      ∧ h.destination? directory logger.2 = some (.node id)).flatMap
    fun logger => Bytes.ofString (logger.2.line r)

variable {added : List AddedLogger}

theorem lines_map_route (hserves : ∀ a ∈ added, h.Serves directory a) (r : Log.Record) :
    Log.Logger.lines (added.map AddedLogger.route) r = AddedLogger.lines added r := by
  have haccepts : ∀ a : AddedLogger,
      a.route.accepts r.target = decide (Log.Within (Log.stem a.name) r.target) := fun a => by
    rw [Bool.eq_iff_iff, AddedLogger.route, Log.accepts_ofTarget_iff, decide_eq_true_iff]
  have hline : ∀ a ∈ added, (a.route.sink.fd, a.route.sink.line r) = (a.fd, a.outlet.line r) := by
    intro a ha
    rw [← a.line_sink, AddedLogger.route, Log.ofTarget_eq]
    refine Prod.ext ?_ rfl
    cases houtlet : a.outlet with
    | user label =>
      simp [AddedLogger.sink, houtlet, Log.Sink.fd, (hserves a ha).user label houtlet]
    | file path => simp [AddedLogger.sink, houtlet, Log.Sink.fd]
  rw [Log.Logger.lines, AddedLogger.lines, List.filter_map, List.map_map]
  simp only [Function.comp_def, haccepts]
  exact List.map_congr_left fun a ha => hline a (List.mem_of_mem_filter ha)

theorem flatMap_filter_lines (hserves : ∀ a ∈ added, h.Serves directory a) (id : NodeId)
    (r : Log.Record) :
    ((AddedLogger.lines added r).filter fun line => h.endpoint? line.1 = some (.node id)).flatMap
        (fun line => Bytes.ofString line.2)
      = h.linesFor directory (added.map AddedLogger.request) id r := by
  have hchosen : (added.filter fun a => Log.Within (Log.stem a.name) r.target).filter
        (fun a => h.endpoint? a.fd = some (.node id))
      = added.filter fun a => Log.Within (Log.stem a.name) r.target
          ∧ h.destination? directory a.outlet = some (.node id) := by
    rw [List.filter_filter]
    refine List.filter_congr fun a ha => ?_
    rw [(hserves a ha).endpoint, ← Bool.decide_and, decide_eq_decide, and_comm]
  rw [AddedLogger.lines, linesFor, List.filter_map, List.filter_map, List.flatMap_map,
    List.flatMap_map]
  exact congrArg _ hchosen

/-! ## The shell's own loggers -/

theorem addLoggers_append (h : Host) (directory : NodeId)
    (loggers more : List (String × Log.Outlet)) :
    h.addLoggers directory (loggers ++ more)
      = h.addLoggers directory loggers >>= fun h' => h'.addLoggers directory more := by
  induction loggers generalizing h with
  | nil => rfl
  | cons logger rest ih =>
      rw [List.cons_append, addLoggers, addLoggers, bind_assoc]
      exact congrArg _ (funext fun between => ih between)

/-- What is written does not depend on the loggers. -/
theorem complain_addRoute (h : Host) (target : String) (sink : Log.Sink) (line : String) :
    (h.addRoute target sink).complain line = (h.complain line).addRoute target sink := by
  unfold complain write addRoute asProcess
  dsimp only
  split <;> rfl

theorem addLoggers_ownLoggers (h : Host) (directory : NodeId) (label path : String) :
    h.addLoggers directory (Shell.ownLoggers label (some path))
      = (h.addRoute Log.userTarget (.user label)).addLogger directory Log.devTarget
          (.file (.ofString path)) := by
  have hrest : h.addLoggers directory (Shell.ownLoggers label (some path))
      = (h.addRoute Log.userTarget (.user label)).addLoggers directory
          [(Log.devTarget, .file (.ofString path))] := rfl
  rw [hrest, addLoggers]
  exact bind_pure _

/-- The logs of the shell are loggers that are added. -/
theorem openLogs_of_addLoggers {label : String} {devLog : Option String}
    (hok : h.addLoggers directory (Shell.ownLoggers label devLog) = .ok opened) :
    Shell.openLogs h directory label devLog = opened := by
  cases devLog with
  | none => exact Except.ok.inj hok
  | some path =>
      rw [addLoggers_ownLoggers] at hok
      simp only [Shell.openLogs, hok]

/-- If the file for developers can not be opened, the user is told, and only
the user's own logger is added. -/
theorem openLogs_of_error {label : String} {devLog : Option String} {cause : OsError}
    (hfailed : h.addLoggers directory (Shell.ownLoggers label devLog) = .error cause) :
    ∃ path, devLog = some path
      ∧ (h.complain (label ++ "cannot open log file " ++ path ++ ": " ++ cause.message)).addLoggers
          directory (Shell.ownLoggers label none)
        = .ok (Shell.openLogs h directory label devLog) := by
  cases devLog with
  | none => cases hfailed
  | some path =>
      rw [addLoggers_ownLoggers] at hfailed
      refine ⟨path, rfl, ?_⟩
      simp only [Shell.openLogs, hfailed, complain_addRoute]
      rfl

/-! ## Whole histories -/

/-- How records are logged after loggers were added to a host without any. -/
structure Logged (h : Host) (directory : NodeId) (loggers : List (String × Log.Outlet))
    (opened : Host) : Prop where
  /-- A record reaches a logger if its target is the logger's path, without a
  separator at the end, or lies below it. -/
  reaches : ∀ (name : String) (sink : Log.Sink) (target : String),
    (Log.Route.ofTarget name sink).accepts target = true ↔ Log.Within (Log.stem name) target
  /-- A longer target has to go on with a separator. -/
  longer : ∀ (name : String) (sink : Log.Sink) (more : String),
    (Log.Route.ofTarget name sink).accepts (Log.stem name ++ more) = true
      ↔ more = "" ∨ Log.separator.toList <+: more.toList
  /-- One separator at the end makes no difference. -/
  alike : ∀ (host : Host) (place : NodeId) (name : String) (outlet : Log.Outlet),
    ¬Log.EndsInSeparator name →
      host.addLogger place (name ++ Log.separator) outlet = host.addLogger place name outlet
  /-- The slice in front of the last two bytes of a scope is a text. -/
  inRange : ∀ (name : String) (sink : Log.Sink),
    (Log.Route.ofTarget name sink).stem? = some (Log.stem name)
  /-- Each record is written once for each logger that it reaches. -/
  written : ∃ added : List AddedLogger, added.map AddedLogger.request = loggers
    ∧ (∀ a ∈ added, opened.Serves directory a)
    ∧ ∀ records : List Log.Record,
      records.foldl record opened = opened.writeAll (records.flatMap (AddedLogger.lines added))
  /-- The loggers that the shell starts with are added like all others. -/
  start : ∀ (label : String) (devLog : Option String) (extra : List (String × Log.Outlet)),
    loggers = Shell.ownLoggers label devLog ++ extra →
      (Shell.openLogs h directory label devLog).addLoggers directory extra = .ok opened
  /-- A file has what it had and the lines for it. If the user's lines get to
  this file as well, they have to be appended as the others are. -/
  contents : ∀ (records : List Log.Record) (id : NodeId), opened.IsFile id →
    (∀ name label, (name, .user label) ∈ loggers → opened.endpoint? 2 = some (.node id) →
      opened.Appends 2) →
    (records.foldl record opened).contents id
      = h.contents id ++ records.flatMap (opened.linesFor directory loggers id)

theorem addLogger_append {name : String} (hends : ¬Log.EndsInSeparator name) (h : Host)
    (directory : NodeId) (outlet : Log.Outlet) :
    h.addLogger directory (name ++ Log.separator) outlet = h.addLogger directory name outlet := by
  cases outlet with
  | user label => simp only [addLogger, addRoute, Log.ofTarget_append hends]
  | file path => simp only [addLogger, addRoute, Log.ofTarget_append hends]

theorem Adds.foldl_record (hadds : h.Adds directory added opened) (hempty : h.logger = [])
    (records : List Log.Record) :
    records.foldl record opened = opened.writeAll (records.flatMap (AddedLogger.lines added)) := by
  have hlogger : opened.logger = added.map AddedLogger.route := by
    rw [hadds.logger, hempty, List.nil_append]
  rw [Host.foldl_record, hlogger, funext (lines_map_route hadds.serves)]

theorem Adds.contents_foldl_record (hadds : h.Adds directory added opened)
    (hempty : h.logger = []) (records : List Log.Record) {id : NodeId} (hfile : opened.IsFile id)
    (huser : ∀ name label, (name, .user label) ∈ added.map AddedLogger.request →
      opened.endpoint? 2 = some (.node id) → opened.Appends 2) :
    (records.foldl record opened).contents id
      = h.contents id
        ++ records.flatMap (opened.linesFor directory (added.map AddedLogger.request) id) := by
  have happends : ∀ line ∈ records.flatMap (AddedLogger.lines added),
      opened.endpoint? line.1 = some (.node id) → opened.Appends line.1 := by
    intro line hline hendpoint
    obtain ⟨r, -, hline⟩ := List.mem_flatMap.mp hline
    obtain ⟨a, ha, rfl⟩ := List.mem_map.mp hline
    have ha := List.mem_of_mem_filter ha
    have hserves := hadds.serves a ha
    cases houtlet : a.outlet with
    | user label =>
        have hfd := hserves.user label houtlet
        dsimp only at hendpoint ⊢
        rw [hfd] at hendpoint ⊢
        refine huser a.name label (List.mem_map.mpr ⟨a, ha, ?_⟩) hendpoint
        rw [AddedLogger.request, houtlet]
    | file path => exact ⟨.append, (hserves.file path houtlet).2, rfl, rfl⟩
  rw [hadds.foldl_record hempty, contents_writeAll hfile happends, hadds.contents,
    List.filter_flatMap, List.flatMap_assoc]
  simp only [flatMap_filter_lines hadds.serves]

/-- **Records are routed by their targets, and every file gets its lines in
order.** -/
theorem logged_of_addLoggers {loggers : List (String × Log.Outlet)} (hempty : h.logger = [])
    (hok : h.addLoggers directory loggers = .ok opened) : h.Logged directory loggers opened := by
  obtain ⟨added, rfl, hadds⟩ := adds_of_addLoggers hok
  exact
    { reaches := fun _ _ _ => Log.accepts_ofTarget_iff
      longer := fun _ _ _ => Log.accepts_ofTarget_iff.trans Log.within_append_iff
      alike := fun host place _ outlet hends => addLogger_append hends host place outlet
      inRange := Log.stem?_ofTarget
      written := ⟨added, rfl, hadds.serves, hadds.foldl_record hempty⟩
      start := fun label devLog extra hown => by
        rw [hown, addLoggers_append] at hok
        obtain ⟨between, hfirst, hrest⟩ := Except.bind_eq_ok_iff.mp hok
        rwa [openLogs_of_addLoggers hfirst]
      contents := fun records _ hfile huser =>
        hadds.contents_foldl_record hempty records hfile huser }

/-- Loggers for one file by two paths, one of them below the other, and one
for the user. -/
def nestedLoggers : List (String × Log.Outlet) :=
  [("jobsh", .file (.ofString "/a")), ("jobsh::dev::", .file (.ofString "a")),
    ("jobsh::user", .user "jobsh: ")]

theorem logged_nested : small.logger = [] ∧ ∃ opened,
    small.addLoggers Machine.Tree.root nestedLoggers = .ok opened
      ∧ ([⟨"jobsh::dev", .info, "x"⟩, ⟨"jobsh_more", .warn, "y"⟩, ⟨"jobsh::user", .warn, "z"⟩].foldl
          record opened).contents 1 = Bytes.ofString "INFO  x\nINFO  x\nWARN  z\n" := by
  have hvalues : (small.addLoggers Machine.Tree.root nestedLoggers).toOption.map (fun opened =>
      (opened.endpoint? 2, opened.leadsTo? Machine.Tree.root (.ofString "/a"),
        opened.leadsTo? Machine.Tree.root (.ofString "a"), opened.world.tree.kept.node? 1))
      = some (some (.node 2), some (.node 1), some (.node 1), some (.file [] true)) := by cbv
  obtain ⟨opened, hopened, hvalues⟩ := Option.map_eq_some_iff.mp hvalues
  simp only [Prod.mk.injEq] at hvalues
  obtain ⟨hstream, hfirst, hsecond, hfile⟩ := hvalues
  have hok := Except.eq_ok_of_toOption hopened
  refine ⟨rfl, opened, hok, ?_⟩
  have hlogged := logged_of_addLoggers rfl hok
  rw [hlogged.contents _ 1 ⟨_, _, hfile⟩ fun _ _ _ hends => by simp [hstream] at hends]
  -- Both paths lead to the file, and the user's stream does not.
  have hdestination : ∀ logger ∈ nestedLoggers,
      opened.destination? Machine.Tree.root logger.2 = some (.node 1)
        ↔ logger.2 ≠ .user "jobsh: " := by
    simp [nestedLoggers, destination?, hstream, hfirst, hsecond]
  have hlines : ∀ r, opened.linesFor Machine.Tree.root nestedLoggers 1 r
      = (nestedLoggers.filter fun logger => Log.Within (Log.stem logger.1) r.target
          ∧ logger.2 ≠ .user "jobsh: ").flatMap fun logger => Bytes.ofString (logger.2.line r) := by
    intro r
    refine congrArg (List.flatMap _) (List.filter_congr fun logger hmem => ?_)
    rw [decide_eq_decide, hdestination logger hmem]
  rw [funext hlines]
  decide +kernel

end Host

end JobShell
