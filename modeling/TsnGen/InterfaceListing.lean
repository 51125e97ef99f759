import TsnGen.ValidatedDirectories

namespace TsnGen.PacketGen

/-!
# The listed interfaces

`--list-interfaces` prints the names that other runs on the directory resolve:
a run that names interfaces works exactly if a line was printed for each of
them, and else it fails with the first name that has none.
-/

/-- The line that lists a name. -/
def listedLine
    (name : String)
    (direction : IfDirections) : String :=
  "  " ++ name ++ "  [" ++ directionName direction ++ "]"

/-- The names of interfaces that arguments give, in the order of the lookups. -/
def namesOf
    (args : Args) : List String :=
  if args.stack ≠ [] then
    args.stack
  else if args.chain ≠ [] then
    args.chain
  else
    [args.iface]

/-- A name is read back from its line. -/
theorem listedLine_injective
    {name other : String}
    {direction otherDirection : IfDirections}
    (same : listedLine name direction = listedLine other otherDirection) :
    name = other := by
  have letters := congrArg String.toList same
  simp only [listedLine, String.toList_append, List.append_assoc,
    List.append_cancel_left_eq] at letters
  have beforeBracket := congrArg (fun text => text.reverse.take 2) letters
  by_cases first : direction = .IN
  · by_cases second : otherDirection = .IN
    · rw [first, second] at letters
      exact String.toList_injective (List.append_cancel_right letters)
    · simp [directionName, first, second] at beforeBracket
  · by_cases second : otherDirection = .IN
    · simp [directionName, first, second] at beforeBracket
    · simp only [directionName, first, second, ↓reduceIte] at letters
      exact String.toList_injective (List.append_cancel_right letters)

/-- No line of a name is the head line. -/
theorem listedLine_ne_head
    (name dir : String)
    (direction : IfDirections) :
    listedLine name direction ≠ "Available interfaces in '" ++ dir ++ "':" := by
  intro same
  have letters := congrArg (fun text => text.toList.head?) same
  simp [listedLine] at letters

variable {session : Session}

/-- Names resolve if each of them is known. -/
theorem resolve_of_known
    {names : List String}
    (known :
      ∀ name ∈ names, ∃ iface, session.interfaceDb.getElement name = some iface) :
    ∃ ifaces, resolve session names = .ok ifaces := by
  induction names with
  | nil =>
      exact ⟨[], rfl⟩
  | cons name rest inductionHypothesis =>
      obtain ⟨iface, found⟩ := known name List.mem_cons_self
      obtain ⟨ifaces, resolved⟩ :=
        inductionHypothesis fun other member =>
          known other (List.mem_cons_of_mem _ member)
      exact ⟨iface :: ifaces, by rw [resolve, found, resolved]; rfl⟩

/-- Else the first name that is not known is the one that is reported. -/
theorem resolve_of_unknown
    {before : List String}
    (known :
      ∀ name ∈ before, ∃ iface, session.interfaceDb.getElement name = some iface)
    {name : String}
    (unknown : session.interfaceDb.getElement name = none)
    (behind : List String) :
    resolve session (before ++ name :: behind) = .error name := by
  induction before with
  | nil =>
      rw [List.nil_append, resolve, unknown]
  | cons first rest inductionHypothesis =>
      obtain ⟨iface, found⟩ := known first List.mem_cons_self
      rw [List.cons_append, resolve, found,
        inductionHypothesis fun other member =>
          known other (List.mem_cons_of_mem _ member)]
      rfl

/-- The pipeline of arguments stands and falls with their names. -/
theorem interfacePipeline_of_resolve
    (args : Args)
    (session : Session) :
    (∀ name, resolve session (namesOf args) = .error name →
        interfacePipeline args session = .error name) ∧
      (∀ ifaces, resolve session (namesOf args) = .ok ifaces →
        ∃ pipeline, interfacePipeline args session = .ok pipeline) := by
  by_cases stacked : args.stack ≠ []
  · rw [namesOf, interfacePipeline, if_pos stacked, if_pos stacked]
    exact ⟨fun name failed => by rw [failed]; rfl,
      fun ifaces resolved => ⟨_, by rw [resolved]; rfl⟩⟩
  · rw [namesOf, interfacePipeline, if_neg stacked, if_neg stacked]
    cases chained : args.chain with
    | nil =>
        rw [if_neg (by simp), resolve]
        cases found : session.interfaceDb.getElement args.iface with
        | none =>
            simp
        | some iface =>
            simp [resolve, Except.map]
    | cons first rest =>
        rw [if_pos (by simp), resolve]
        cases found : session.interfaceDb.getElement first with
        | none =>
            simp [found]
        | some iface =>
            cases resolved : resolve session rest with
            | error name =>
                simp [found, resolved, Except.map]
            | ok ifaces =>
                simp [found, resolved, Except.map]

/-- A name has a line exactly if it is known. -/
theorem mem_listInterfaces_iff
    (args : Args)
    (session : Session)
    (name : String) :
    (∃ direction, listedLine name direction ∈ listInterfaces args session) ↔
      ∃ iface, session.interfaceDb.getElement name = some iface := by
  have known (iface : ProtocolInterface) :
      session.interfaceDb.getElement name = some iface ↔
        (name, iface) ∈ session.interfaceDb.entries :=
    OrderedMap.find?_eq_some_iff
  simp only [known]
  constructor
  · rintro ⟨direction, member⟩
    rcases List.mem_cons.mp member with isHead | isLine
    · exact absurd isHead (listedLine_ne_head _ _ _)
    · obtain ⟨⟨other, iface⟩, inMap, same⟩ := List.mem_map.mp isLine
      exact ⟨iface, listedLine_injective same ▸ inMap⟩
  · rintro ⟨iface, inMap⟩
    exact ⟨iface.direction,
      List.mem_cons_of_mem _ (List.mem_map.mpr ⟨_, inMap, rfl⟩)⟩

/--
Listing and resolving agree.  On a directory that is parsed, a run that names
interfaces gets a pipeline if a listing run prints a line for each of the names;
else it exits with an error and, behind its lines about the arguments, reports
the first name without a line.
-/
theorem listed_names_resolve
    {host : Host G S R}
    {arguments arguments' : List String}
    {args args' : Args}
    {parser : ProtocolParser}
    (read : CommandLine.parseArgs arguments {} = .ok (true, args))
    (read' : CommandLine.parseArgs arguments' {} = .ok (true, args'))
    (noValidation : args.validate = false)
    (noValidation' : args'.validate = false)
    (listing : args.listInterfaces = true)
    (noListing' : args'.listInterfaces = false)
    (noStackFile' : args'.stackFile = "")
    (sameDirectory : args'.yamlDir = args.yamlDir)
    (parsed :
      ProtocolParser.parse host.loader args.yamlDir
        (host.directory args.yamlDir) .fresh = .ok (.success, parser))
    (limit limit' : Nat) :
    let listed name :=
      ∃ direction, listedLine name direction ∈
        (main host limit arguments).2.stdout
    ((∀ name ∈ namesOf args', listed name) →
        ∃ pipeline,
          Reaches host arguments' args' parser.session pipeline) ∧
      ∀ before name behind,
        namesOf args' = before ++ name :: behind →
          (∀ earlier ∈ before, listed earlier) → ¬ listed name →
            main host limit' arguments' =
              (.code 2,
                { stderr :=
                    (CommandLine.lines arguments' {}).map .line ++
                      [.line ("Interface not found: " ++ name),
                        .line
                          "Run with --list-interfaces to see available names."]
                          }) := by
  have lists :
      (main host limit arguments).2.stdout =
        listInterfaces args parser.session := by
    have run : RunsOn args.yamlDir arguments args :=
      ⟨read, noValidation, rfl⟩
    rw [run.main_of_parsed parsed, stdout_afterReading]
    simp only [runSession, listing, ↓reduceIte]
  intro listed
  have known (name : String) :
      listed name ↔
        ∃ iface, parser.session.interfaceDb.getElement name = some iface := by
    rw [← mem_listInterfaces_iff args, ← lists]
  obtain ⟨fails, resolves⟩ :=
    interfacePipeline_of_resolve args' parser.session
  constructor
  · intro all
    obtain ⟨ifaces, resolved⟩ :=
      resolve_of_known fun name member => (known name).mp (all name member)
    obtain ⟨pipeline, isPipeline⟩ := resolves ifaces resolved
    refine ⟨pipeline, read', noValidation', noListing', ⟨parser, ?_, rfl⟩, ?_⟩
    · rw [sameDirectory, parsed]
    · simp [pipelineOf, noStackFile', isPipeline, Except.toOption]
  · intro before name behind split earlier unlisted
    have unknown :
        parser.session.interfaceDb.getElement name = none := by
      by_contra found
      obtain ⟨iface, isIface⟩ := Option.ne_none_iff_exists'.mp found
      exact unlisted ((known name).mpr ⟨iface, isIface⟩)
    have failed :=
      fails name (split ▸ resolve_of_unknown
        (fun other member => (known other).mp (earlier other member)) unknown
        behind)
    have run : RunsOn args.yamlDir arguments' args' :=
      ⟨read', noValidation', sameDirectory⟩
    rw [run.main_of_parsed parsed]
    simp only [runSession, noListing', Bool.false_eq_true, ↓reduceIte,
      noStackFile', ne_eq, not_true_eq_false, failed]
    rfl

theorem listed_names_resolve_unlisted :
    (∃ pipeline,
        Reaches quietHost ["--yaml-dir", "d", "--interface", "svc::mac::tx"]
          { yamlDir := "d", iface := "svc::mac::tx" } soleSession
          pipeline) ∧
      main quietHost 3
          ["--yaml-dir", "d", "--stack", "svc::mac::tx:svc::mac::rx",
            "--count"] =
        (.code 2,
          { stderr :=
              [.line "Missing value for --count",
                .line "Interface not found: svc::mac::rx",
                .line
                  "Run with --list-interfaces to see available names."] }) := by
  obtain ⟨parser, parsed, session⟩ := soleText_parses
  have read :
      CommandLine.parseArgs ["--yaml-dir", "d", "--list-interfaces"] {} =
        .ok (true, { yamlDir := "d", listInterfaces := true }) := by
    rfl
  have readOne :
      CommandLine.parseArgs
          ["--yaml-dir", "d", "--interface", "svc::mac::tx"] {} =
        .ok (true, { yamlDir := "d", iface := "svc::mac::tx" }) := by
    rfl
  have readBoth :
      CommandLine.parseArgs
          ["--yaml-dir", "d", "--stack", "svc::mac::tx:svc::mac::rx",
            "--count"] {} =
        .ok (true,
          { yamlDir := "d", stack := ["svc::mac::tx", "svc::mac::rx"] }) := by
    decide +kernel
  have lists :
      (main quietHost 3 ["--yaml-dir", "d", "--list-interfaces"]).2.stdout =
        ["Available interfaces in 'd':", "  svc::mac::tx  [out]"] := by
    decide +kernel
  have listed :
      ∃ direction,
        listedLine "svc::mac::tx" direction ∈
          ["Available interfaces in 'd':", "  svc::mac::tx  [out]"] :=
    ⟨.OUT, by decide +kernel⟩
  have one :=
    @listed_names_resolve Unit Handed Unit quietHost _ _ _ _ parser read
      readOne rfl rfl rfl rfl rfl rfl parsed 3 3
  have both :=
    @listed_names_resolve Unit Handed Unit quietHost _ _ _ _ parser read
      readBoth rfl rfl rfl rfl rfl rfl parsed 3 3
  rw [lists] at one both
  rw [session] at one
  constructor
  · refine one.1 ?_
    intro name member
    rw [List.mem_singleton.mp member]
    exact listed
  · refine both.2 ["svc::mac::tx"] "svc::mac::rx" [] rfl ?_ ?_
    · intro earlier member
      rw [List.mem_singleton.mp member]
      exact listed
    · rintro ⟨direction, member⟩
      revert member
      cases direction with
      | IN =>
          decide +kernel
      | OUT =>
          decide +kernel

end TsnGen.PacketGen
