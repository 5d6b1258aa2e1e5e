import Savitools.Translations.WrittenMessages

namespace Savitools.Translations.SilentMismatches

open Strings.CodeUnits Json.Numbers Stores.Entries Messages WrittenMessages Structures

/-- The type of an argument of a name. -/
def typeUnder (name : Text) : Node → Option Text
  | .text _ => none
  | .argument other argumentType => if other = name then some argumentType else none
  | .choice other argumentType _ _ => if other = name then some argumentType else none

def branchesUnder (name : Text) : Node → Branches
  | .choice other _ _ branches => if other = name then branches else []
  | _ => []

/-- The types with which a variable stands among the nodes; without any it does not stand there. -/
def argumentTypes (name : Text) (nodes : List Node) : List Text := nodes.filterMap (typeUnder name)

def branchesOf (name : Text) (nodes : List Node) : Branches := nodes.flatMap (branchesUnder name)

def branchLabels (name : Text) (nodes : List Node) : List Text := (branchesOf name nodes).map (·.1)

/-- What the branches of a label hold, in all the arguments of a name. -/
def inside (name label : Text) (nodes : List Node) : List Node :=
  (branchesOf name nodes).flatMap fun branch => if branch.1 = label then branch.2 else []

/-- The nodes of a nesting level, found by the variables and labels that lead to it. -/
def level : List (Text × Text) → List Node → List Node
  | [], nodes => nodes
  | (name, label) :: path, nodes => level path (inside name label nodes)

def levelOf (message : Text) (path : List (Text × Text)) : List Node := level path (writtenMessage message).nodes

/-- Both messages have the same variables of the same types, and the same branch labels, at every level. -/
def SameStructure (source target : Text) : Prop :=
  ∀ path name,
    (∀ argumentType, argumentType ∈ argumentTypes name (levelOf source path) ↔
      argumentType ∈ argumentTypes name (levelOf target path)) ∧
    ∀ label, label ∈ branchLabels name (levelOf source path) ↔ label ∈ branchLabels name (levelOf target path)

/-- The type that is kept for a variable: that of its first argument. -/
def keptType (name : Text) (nodes : List Node) : Option Text := (argumentTypes name nodes).head?

def keptChoice (name : Text) (nodes : List Node) : Bool := (keptType name nodes).any (complexArgumentTypes.contains ·)

/-- The branch that is kept for a label: the last one, unless the first argument is no choice. -/
def keptBranch (name label : Text) (nodes : List Node) : List Node :=
  if keptChoice name nodes then (lastOf label (branchesOf name nodes)).getD [] else []

def keptLabels (name : Text) (nodes : List Node) : List Text :=
  if keptChoice name nodes then branchLabels name nodes else []

def keptLevel : List (Text × Text) → List Node → List Node
  | [], nodes => nodes
  | (name, label) :: path, nodes => keptLevel path (keptBranch name label nodes)

def keptLevelOf (message : Text) (path : List (Text × Text)) : List Node :=
  keptLevel path (writtenMessage message).nodes

/-- The types and labels of a message that are not kept are in the other message too. -/
def SharesOverwritten (message other : Text) : Prop :=
  ∀ path name,
    (∀ argumentType ∈ argumentTypes name (levelOf message path),
      argumentType ∉ keptType name (keptLevelOf message path) → argumentType ∈ argumentTypes name (levelOf other path)) ∧
    ∀ label ∈ branchLabels name (levelOf message path),
      label ∉ keptLabels name (keptLevelOf message path) → label ∈ branchLabels name (levelOf other path)

theorem argumentTypes_cons (name : Text) (node : Node) (nodes : List Node) :
    argumentTypes name (node :: nodes) = (typeUnder name node).toList ++ argumentTypes name nodes := by
  rw [argumentTypes, List.filterMap_cons]
  cases typeUnder name node <;> rfl

theorem branchesOf_cons (name : Text) (node : Node) (nodes : List Node) :
    branchesOf name (node :: nodes) = branchesUnder name node ++ branchesOf name nodes := List.flatMap_cons

theorem argumentTypes_storedNodes (name : Text) (nodes : List Node) :
    argumentTypes name (storedNodes nodes) = argumentTypes name nodes := by
  induction nodes with
  | nil => rfl
  | cons node nodes ih =>
      rw [storedNodes, argumentTypes_cons, argumentTypes_cons, ih]
      cases node <;> rfl

theorem lastOf_branchesOf_storedNodes (name label : Text) (nodes : List Node) :
    lastOf label (branchesOf name (storedNodes nodes)) = (lastOf label (branchesOf name nodes)).map storedNodes := by
  induction nodes with
  | nil => rfl
  | cons node nodes ih =>
      have hnode : lastOf label (branchesUnder name (storedNode node)) =
          (lastOf label (branchesUnder name node)).map storedNodes := by
        cases node with
        | text value => rfl
        | argument other argumentType => rfl
        | choice other argumentType offset branches =>
            rw [storedNode, branchesUnder, branchesUnder]
            split
            · exact lastOf_storedBranches label branches
            · rfl
      rw [storedNodes, branchesOf_cons, branchesOf_cons, lastOf_append, lastOf_append, ih, hnode]
      cases lastOf label (branchesOf name nodes) <;> rfl

/-- The branch of an argument that a map has. -/
def branchIn (arguments : ArgumentMap) (name label : Text) : Option ArgumentMap :=
  (arguments.lookup name).bind fun argument => argument.branches.lookup label

theorem lookup_collectBranches (label : Text) (known : List (Text × ArgumentMap)) (branches : Branches) :
    (collectBranches known branches).lookup label =
      ((lastOf label branches).map collectArguments).or (known.lookup label) := by
  induction branches generalizing known with
  | nil => rw [collectBranches]; rfl
  | cons branch branches ih =>
      obtain ⟨other, nodes⟩ := branch
      rw [collectBranches, ih, lookup_put, lastOf_cons]
      cases lastOf label branches <;> cases label == other <;> rfl

@[simp] theorem argumentType_withBranches (branches : List (Text × ArgumentMap)) (argument : Argument) :
    (argument.withBranches branches).argumentType = argument.argumentType := by
  cases argument
  rfl

@[simp] theorem branches_withBranches (branches : List (Text × ArgumentMap)) (argument : Argument) :
    (argument.withBranches branches).branches = branches := by
  cases argument
  rfl

theorem argumentType_collectNode (name : Text) (known : ArgumentMap) (node : Node) :
    ((collectNode known node).lookup name).map Argument.argumentType =
      ((known.lookup name).map Argument.argumentType).or (typeUnder name node) := by
  cases node with
  | text value => exact Option.or_none.symm
  | argument other argumentType =>
      rw [collectNode, lookup_put, typeUnder]
      by_cases hname : name = other
      · rw [hname, beq_self_eq_true, if_pos rfl, if_pos rfl, argumentNamed]
        cases known.lookup other <;> rfl
      · rw [beq_false_of_ne hname, if_neg (Ne.symm hname), Option.or_none]
        rfl
  | choice other argumentType offset branches =>
      rw [collectNode, lookup_put, typeUnder]
      by_cases hname : name = other
      · rw [hname, beq_self_eq_true, if_pos rfl, if_pos rfl, Option.map_some, argumentType_withBranches,
          argumentNamed]
        cases known.lookup other <;> rfl
      · rw [beq_false_of_ne hname, if_neg (Ne.symm hname), Option.or_none]
        rfl

/-- The first argument of a name decides the type. -/
theorem argumentType_collectInto (name : Text) (known : ArgumentMap) (nodes : List Node) :
    ((collectInto known nodes).lookup name).map Argument.argumentType =
      ((known.lookup name).map Argument.argumentType).or (argumentTypes name nodes).head? := by
  induction nodes generalizing known with
  | nil => exact Option.or_none.symm
  | cons node nodes ih =>
      rw [collectInto, ih, argumentType_collectNode, argumentTypes_cons, Option.or_assoc, List.head?_append]
      cases typeUnder name node <;> rfl

theorem branchIn_collectNode (name label : Text) (known : ArgumentMap) (node : Node) :
    branchIn (collectNode known node) name label =
      ((lastOf label (branchesUnder name node)).map collectArguments).or (branchIn known name label) := by
  cases node with
  | text value => rfl
  | argument other argumentType =>
      rw [collectNode, branchIn, lookup_put]
      by_cases hname : name = other
      · rw [hname, beq_self_eq_true, if_pos rfl, argumentNamed, branchIn]
        cases known.lookup other <;> rfl
      · rw [beq_false_of_ne hname]
        rfl
  | choice other argumentType offset branches =>
      rw [collectNode, branchIn, lookup_put, branchesUnder]
      by_cases hname : name = other
      · rw [hname, beq_self_eq_true, if_pos rfl, if_pos rfl, Option.bind_some, branches_withBranches,
          lookup_collectBranches, argumentNamed, branchIn]
        cases known.lookup other <;> rfl
      · rw [beq_false_of_ne hname, if_neg (Ne.symm hname)]
        rfl

/-- The last branch of a label is the one that is collected. -/
theorem branchIn_collectInto (name label : Text) (known : ArgumentMap) (nodes : List Node) :
    branchIn (collectInto known nodes) name label =
      ((lastOf label (branchesOf name nodes)).map collectArguments).or (branchIn known name label) := by
  induction nodes generalizing known with
  | nil => rw [collectInto]; rfl
  | cons node nodes ih =>
      rw [collectInto, ih, branchIn_collectNode, branchesOf_cons, lastOf_append, ← Option.or_assoc]
      cases lastOf label (branchesOf name nodes) <;> rfl

/-- What the checker compares of written nodes. -/
def collected (nodes : List Node) : ArgumentMap := collectArguments (storedNodes nodes)

theorem argumentType_collected (name : Text) (nodes : List Node) :
    ((collected nodes).lookup name).map Argument.argumentType = keptType name nodes := by
  rw [collected, collectArguments, argumentType_collectInto, argumentTypes_storedNodes]
  rfl

theorem branchIn_collected (name label : Text) (nodes : List Node) :
    branchIn (collected nodes) name label = (lastOf label (branchesOf name nodes)).map collected := by
  rw [collected, collectArguments, branchIn_collectInto, lastOf_branchesOf_storedNodes, Option.map_map]
  exact Option.or_none

section Silent

variable {key context : Text} {source target : ArgumentMap}

theorem mem_of_lookup {κ ν : Type} [BEq κ] [LawfulBEq κ] {k : κ} {v : ν} {entries : List (κ × ν)}
    (h : entries.lookup k = some v) : (k, v) ∈ entries := by
  obtain ⟨before, after, rfl, -⟩ := List.lookup_eq_some_iff.mp h
  exact List.mem_append_right _ List.mem_cons_self

/-- An argument without issues is in the other map with the same type, and a choice with branches as good as its own. -/
theorem compareArgument_nil {name other argumentType : Text} {offset : Option Number}
    {branches : List (Text × ArgumentMap)}
    (h : compareArgument key context name target (.mk other argumentType offset branches) = []) :
    ∃ argument, target.lookup name = some argument ∧ argumentType = argument.argumentType ∧
      (argumentType ∈ complexArgumentTypes →
        compareBranches key context name argumentType argument.branches branches = [] ∧
          extraBranches key name argumentType branches argument.branches = []) := by
  rw [compareArgument] at h
  cases hlookup : target.lookup name with
  | none =>
      rw [hlookup] at h
      cases h
  | some argument =>
      simp only [hlookup] at h
      refine ⟨argument, rfl, ?_⟩
      by_cases htype : argumentType = argument.argumentType
      · rw [if_neg (not_not_intro htype)] at h
        refine ⟨htype, ?_⟩
        intro hcomplex
        rw [if_neg (not_not_intro hcomplex), List.append_eq_nil_iff, List.append_eq_nil_iff] at h
        exact ⟨h.1.2, h.2⟩
      · rw [if_pos htype] at h
        cases h

theorem compareArguments_nil (h : compareArguments key context target source = []) {name : Text} {argument : Argument}
    (hmem : (name, argument) ∈ source) : compareArgument key context name target argument = [] := by
  induction source with
  | nil => cases hmem
  | cons entry source ih =>
      obtain ⟨entryName, entryArgument⟩ := entry
      rw [compareArguments, List.append_eq_nil_iff] at h
      rcases List.mem_cons.mp hmem with heq | hmem
      · cases heq
        exact h.1
      · exact ih h.2 hmem

theorem compareBranches_nil {name argumentType label : Text} {branches others : List (Text × ArgumentMap)}
    (h : compareBranches key context name argumentType others branches = []) {branch : ArgumentMap}
    (hmem : (label, branch) ∈ branches) :
    ∃ other, others.lookup label = some other ∧
      compareArgumentMaps branch other key (branchContext context name label) = [] := by
  induction branches with
  | nil => cases hmem
  | cons entry branches ih =>
      obtain ⟨entryLabel, entryBranch⟩ := entry
      rw [compareBranches, List.append_eq_nil_iff] at h
      rcases List.mem_cons.mp hmem with heq | hmem
      · cases heq
        have hentry := h.1
        cases hlookup : others.lookup label with
        | none =>
            rw [hlookup] at hentry
            cases hentry
        | some other =>
            simp only [hlookup] at hentry
            exact ⟨other, rfl, hentry⟩
      · exact ih h.2 hmem

theorem isSome_of_filter_nil {ν μ β : Type} {entries : List (Text × ν)} {others : List (Text × μ)} {f : Text × μ → β}
    (h : (others.filter fun entry => (entries.lookup entry.1).isNone).map f = []) {k : Text} {v : μ}
    (hv : others.lookup k = some v) : (entries.lookup k).isSome := by
  rw [List.map_eq_nil_iff, List.filter_eq_nil_iff] at h
  simpa using h _ (mem_of_lookup hv)

/-- Without an issue the types are the same under every name. -/
theorem argumentType_eq_of_nil (h : compareArgumentMaps source target key context = []) (name : Text) :
    (source.lookup name).map Argument.argumentType = (target.lookup name).map Argument.argumentType := by
  rw [compareArgumentMaps, List.append_eq_nil_iff] at h
  cases hsource : source.lookup name with
  | some argument =>
      obtain ⟨other, argumentType, offset, branches⟩ := argument
      obtain ⟨targetArgument, htarget, htype, -⟩ := compareArgument_nil (compareArguments_nil h.1 (mem_of_lookup hsource))
      rw [htarget, Option.map_some, Option.map_some, ← htype]
      rfl
  | none =>
      cases htarget : target.lookup name with
      | none => rfl
      | some argument =>
          have hsome := isSome_of_filter_nil h.2 htarget
          rw [hsource] at hsome
          cases hsome

/-- Without an issue the branches of a choice have the same labels, and there is no issue inside. -/
theorem branchIn_of_nil (h : compareArgumentMaps source target key context = []) {name : Text}
    (hcomplex : ((source.lookup name).map Argument.argumentType).any (complexArgumentTypes.contains ·))
    (label : Text) :
    (branchIn source name label = none ∧ branchIn target name label = none) ∨
      ∃ branch other, branchIn source name label = some branch ∧ branchIn target name label = some other ∧
        compareArgumentMaps branch other key (branchContext context name label) = [] := by
  rw [compareArgumentMaps, List.append_eq_nil_iff] at h
  cases hsource : source.lookup name with
  | none =>
      rw [hsource] at hcomplex
      cases hcomplex
  | some argument =>
      obtain ⟨ownName, argumentType, offset, branches⟩ := argument
      obtain ⟨targetArgument, htarget, -, hbranches⟩ := compareArgument_nil (compareArguments_nil h.1 (mem_of_lookup hsource))
      rw [hsource] at hcomplex
      obtain ⟨hcompare, hextra⟩ := hbranches (List.contains_iff_mem.mp hcomplex)
      simp only [branchIn, hsource, htarget, Option.bind_some, Argument.branches]
      cases hbranch : branches.lookup label with
      | some branch =>
          obtain ⟨other, hother, hinside⟩ := compareBranches_nil hcompare (mem_of_lookup hbranch)
          exact .inr ⟨branch, other, rfl, hother, hinside⟩
      | none =>
          refine .inl ⟨rfl, ?_⟩
          rw [Option.eq_none_iff_forall_ne_some]
          intro other hother
          have hsome := isSome_of_filter_nil hextra hother
          rw [hbranch] at hsome
          cases hsome

end Silent

section Kept

variable {key context : Text} {source target : List Node}

theorem keptType_eq_of_nil (h : compareArgumentMaps (collected source) (collected target) key context = [])
    (name : Text) : keptType name source = keptType name target := by
  rw [← argumentType_collected, ← argumentType_collected]
  exact argumentType_eq_of_nil h name

/-- Without an issue a kept branch is missing on both sides, or it has no issue inside. -/
theorem lastOf_of_nil (h : compareArgumentMaps (collected source) (collected target) key context = []) {name : Text}
    (hchoice : keptChoice name source = true) (label : Text) :
    (lastOf label (branchesOf name source) = none ∧ lastOf label (branchesOf name target) = none) ∨
      ∃ branch other, lastOf label (branchesOf name source) = some branch ∧
        lastOf label (branchesOf name target) = some other ∧
        compareArgumentMaps (collected branch) (collected other) key (branchContext context name label) = [] := by
  rw [keptChoice, ← argumentType_collected] at hchoice
  have hbranches := branchIn_of_nil h hchoice label
  rw [branchIn_collected, branchIn_collected] at hbranches
  rcases hbranches with ⟨hsource, htarget⟩ | ⟨branch, other, hsource, htarget, hinside⟩
  · exact .inl ⟨Option.map_eq_none_iff.mp hsource, Option.map_eq_none_iff.mp htarget⟩
  · obtain ⟨branchNodes, hbranch, rfl⟩ := Option.map_eq_some_iff.mp hsource
    obtain ⟨otherNodes, hother, rfl⟩ := Option.map_eq_some_iff.mp htarget
    exact .inr ⟨branchNodes, otherNodes, hbranch, hother, hinside⟩

theorem mem_keptLabels_iff_of_nil (h : compareArgumentMaps (collected source) (collected target) key context = [])
    (name label : Text) : label ∈ keptLabels name source ↔ label ∈ keptLabels name target := by
  have hchoice : keptChoice name source = keptChoice name target := by
    rw [keptChoice, keptChoice, keptType_eq_of_nil h]
  rw [keptLabels, keptLabels, ← hchoice]
  cases hsource : keptChoice name source with
  | false => exact Iff.rfl
  | true =>
      rw [if_pos rfl, if_pos rfl, branchLabels, branchLabels, ← lastOf_isSome_iff, ← lastOf_isSome_iff]
      rcases lastOf_of_nil h hsource label with ⟨hnone, hnone'⟩ | ⟨branch, other, hbranch, hother, -⟩
      · rw [hnone, hnone']
      · rw [hbranch, hother]
        exact ⟨fun _ => rfl, fun _ => rfl⟩

/-- At every level that is kept, the checker lets only the same types and labels pass. -/
theorem kept_of_nil (h : compareArgumentMaps (collected source) (collected target) key context = [])
    (path : List (Text × Text)) (name : Text) :
    keptType name (keptLevel path source) = keptType name (keptLevel path target) ∧
      ∀ label, label ∈ keptLabels name (keptLevel path source) ↔ label ∈ keptLabels name (keptLevel path target) := by
  induction path generalizing context source target with
  | nil => exact ⟨keptType_eq_of_nil h name, mem_keptLabels_iff_of_nil h name⟩
  | cons step path ih =>
      obtain ⟨other, label⟩ := step
      have hchoice : keptChoice other source = keptChoice other target := by
        rw [keptChoice, keptChoice, keptType_eq_of_nil h]
      rw [keptLevel, keptLevel, keptBranch, keptBranch, ← hchoice]
      cases hsource : keptChoice other source with
      | false => exact ⟨rfl, fun _ => Iff.rfl⟩
      | true =>
          rw [if_pos rfl, if_pos rfl]
          rcases lastOf_of_nil h hsource label with ⟨hnone, hnone'⟩ | ⟨branch, branch', hbranch, hbranch', hinside⟩
          · rw [hnone, hnone']
            exact ⟨rfl, fun _ => Iff.rfl⟩
          · rw [hbranch, hbranch']
            exact ih hinside

end Kept

theorem argumentTypes_subset {nodes others : List Node} (h : nodes ⊆ others) (name : Text) :
    argumentTypes name nodes ⊆ argumentTypes name others := List.filterMap_subset _ h

theorem branchesOf_subset {nodes others : List Node} (h : nodes ⊆ others) (name : Text) :
    branchesOf name nodes ⊆ branchesOf name others := by
  intro branch hbranch
  obtain ⟨node, hnode, hmem⟩ := List.mem_flatMap.mp hbranch
  exact List.mem_flatMap.mpr ⟨node, h hnode, hmem⟩

theorem branchLabels_subset {nodes others : List Node} (h : nodes ⊆ others) (name : Text) :
    branchLabels name nodes ⊆ branchLabels name others := List.map_subset _ (branchesOf_subset h name)

theorem keptBranch_subset {nodes others : List Node} (h : nodes ⊆ others) (name label : Text) :
    keptBranch name label nodes ⊆ inside name label others := by
  rw [keptBranch]
  split
  · cases hlast : lastOf label (branchesOf name nodes) with
    | none => exact List.nil_subset _
    | some branch =>
        have hmem : (label, branch) ∈ branchesOf name others :=
          branchesOf_subset h name (List.mem_reverse.mp (mem_of_lookup hlast))
        intro node hnode
        exact List.mem_flatMap.mpr ⟨(label, branch), hmem, by simpa using hnode⟩
  · exact List.nil_subset _

theorem keptLevel_subset {nodes others : List Node} (h : nodes ⊆ others) (path : List (Text × Text)) :
    keptLevel path nodes ⊆ level path others := by
  induction path generalizing nodes others with
  | nil => exact h
  | cons step path ih => exact ih (keptBranch_subset h step.1 step.2)

theorem mem_of_keptType {name argumentType : Text} {message : Text} {path : List (Text × Text)}
    (h : argumentType ∈ keptType name (keptLevelOf message path)) :
    argumentType ∈ argumentTypes name (levelOf message path) :=
  argumentTypes_subset (keptLevel_subset (List.Subset.refl _) path) name (List.mem_of_mem_head? h)

theorem mem_of_keptLabels {name label : Text} {message : Text} {path : List (Text × Text)}
    (h : label ∈ keptLabels name (keptLevelOf message path)) : label ∈ branchLabels name (levelOf message path) := by
  rw [keptLabels] at h
  split at h
  · exact branchLabels_subset (keptLevel_subset (List.Subset.refl _) path) name h
  · cases h

/-- Messages that the checker passes are well formed and keep the same. -/
theorem kept_of_passed {source target key : Text} (h : compareMessageStructure source target key = [])
    (path : List (Text × Text)) (name : Text) :
    keptType name (keptLevelOf source path) = keptType name (keptLevelOf target path) ∧
      ∀ label, label ∈ keptLabels name (keptLevelOf source path) ↔ label ∈ keptLabels name (keptLevelOf target path) := by
  rw [compareMessageStructure] at h
  split at h
  · rename_i hmalformed
    exact absurd h hmalformed
  · rw [parseMessage_eq_stored, parseMessage_eq_stored] at h
    exact kept_of_nil h path name

theorem uses_of_shares {source target : Text} (hshares : SharesOverwritten source target)
    (hkept : ∀ path name,
      keptType name (keptLevelOf source path) = keptType name (keptLevelOf target path) ∧
        ∀ label, label ∈ keptLabels name (keptLevelOf source path) ↔
          label ∈ keptLabels name (keptLevelOf target path)) (path : List (Text × Text)) (name : Text) :
    (∀ argumentType ∈ argumentTypes name (levelOf source path), argumentType ∈ argumentTypes name (levelOf target path)) ∧
      ∀ label ∈ branchLabels name (levelOf source path), label ∈ branchLabels name (levelOf target path) := by
  obtain ⟨htypes, hlabels⟩ := hshares path name
  obtain ⟨hkeptType, hkeptLabels⟩ := hkept path name
  constructor
  · intro argumentType hmem
    by_cases hfirst : argumentType ∈ keptType name (keptLevelOf source path)
    · exact mem_of_keptType (hkeptType ▸ hfirst)
    · exact htypes argumentType hmem hfirst
  · intro label hmem
    by_cases hlabel : label ∈ keptLabels name (keptLevelOf source path)
    · exact mem_of_keptLabels ((hkeptLabels label).mp hlabel)
    · exact hlabels label hmem hlabel

/-- Messages that the checker passes have the same structure exactly when each of them has also what the
repetitions in the other overwrite. -/
theorem sameStructure_iff {source target key : Text} (h : compareMessageStructure source target key = []) :
    SameStructure source target ↔ SharesOverwritten source target ∧ SharesOverwritten target source := by
  constructor
  · intro hsame
    constructor
    · intro path name
      exact ⟨fun argumentType hmem _ => ((hsame path name).1 argumentType).mp hmem,
        fun label hmem _ => ((hsame path name).2 label).mp hmem⟩
    · intro path name
      exact ⟨fun argumentType hmem _ => ((hsame path name).1 argumentType).mpr hmem,
        fun label hmem _ => ((hsame path name).2 label).mpr hmem⟩
  · rintro ⟨hsource, htarget⟩ path name
    have hkept := kept_of_passed h
    have hforward := uses_of_shares hsource hkept path name
    have hback := uses_of_shares htarget
      (fun path name => ⟨(hkept path name).1.symm, fun label => ((hkept path name).2 label).symm⟩) path name
    exact ⟨fun argumentType => ⟨hforward.1 argumentType, hback.1 argumentType⟩,
      fun label => ⟨hforward.2 label, hback.2 label⟩⟩

theorem sameStructure_iff_repeated :
    SameStructure (text "\x7bn\x7d \x7bn, plural, other \x7bx\x7d\x7d") (text "\x7bn\x7d \x7bn, plural, other \x7by\x7d\x7d") ↔
      SharesOverwritten (text "\x7bn\x7d \x7bn, plural, other \x7bx\x7d\x7d")
          (text "\x7bn\x7d \x7bn, plural, other \x7by\x7d\x7d") ∧
        SharesOverwritten (text "\x7bn\x7d \x7bn, plural, other \x7by\x7d\x7d")
          (text "\x7bn\x7d \x7bn, plural, other \x7bx\x7d\x7d") :=
  @sameStructure_iff _ _ [] (by decide +kernel)

/-- A variable that is a plain interpolation first hides its plural. -/
theorem not_sameStructure_of_passed :
    ¬ ∀ source target key, (parseMessage source).errors = [] → (parseMessage target).errors = [] →
      compareMessageStructure source target key = [] → SameStructure source target := by
  intro h
  have hsame := h (text "\x7bn\x7d \x7bn, plural, other \x7bx\x7d\x7d") (text "\x7bn\x7d") [] (by decide +kernel)
    (by decide +kernel) (by decide +kernel)
  have hmem : text "plural" ∈ argumentTypes (text "n") (levelOf (text "\x7bn\x7d") []) :=
    ((hsame [] (text "n")).1 (text "plural")).mp (by decide +kernel)
  exact absurd hmem (by decide +kernel)

end Savitools.Translations.SilentMismatches
