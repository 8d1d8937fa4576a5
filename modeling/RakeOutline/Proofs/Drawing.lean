import Mathlib.Data.Option.Basic
import RakeOutline.Proofs.Lines
import RakeOutline.Proofs.Traversal
import RakeOutline.Report.Tree

namespace RakeOutline

/-- The way down to a node of a tree: for each step, whether it leads to the last child. -/
abbrev Way := List Bool

mutual

/-- The nodes of a tree, each before those below it and with the way down to it. The way down to the
tree itself is given. -/
def Snapshot.places (way : Way) : Snapshot → List (Way × Node)
  | ⟨node, children⟩ => (way, node) :: placesBelow way children

def placesBelow (way : Way) : List Snapshot → List (Way × Node)
  | [] => []
  | first :: rest => first.places (way ++ [rest.isEmpty]) ++ placesBelow way rest

end

/-- What a step of the way leaves on the lines of all nodes further down. -/
def gap (last : Bool) : String :=
  if last then "  " else "│ "

/-- What the last step of the way leaves on the line of the node that it leads to. -/
def corner (last : Bool) : String :=
  if last then "└─ " else "├─ "

def Way.margin (way : Way) : String :=
  String.join (way.map gap)

def Way.branch : Way → String
  | [] => ""
  | [last] => corner last
  | first :: second :: rest => gap first ++ Way.branch (second :: rest)

@[simp] theorem Way.margin_concat (way : Way) (last : Bool) :
    Way.margin (way ++ [last]) = way.margin ++ gap last := by
  simp [Way.margin, String.join_append]

@[simp] theorem Way.branch_concat (way : Way) (last : Bool) :
    Way.branch (way ++ [last]) = way.margin ++ corner last := by
  fun_induction Way.branch way with
  | case1 => simp [Way.branch, Way.margin]
  | case2 first => simp [Way.branch, Way.margin]
  | case3 first second rest ih =>
    rw [List.cons_append, List.cons_append, Way.branch, ← List.cons_append, ih]
    simp [Way.margin, String.append_assoc]

mutual

theorem Snapshot.map_places (width : Nat) (way : Way) : (snapshot : Snapshot) →
    (snapshot.places way).map (fun place => place.1.branch ++ place.2.title width) =
      (way.branch ++ snapshot.node.title width) :: snapshot.lowerLines width way.margin
  | ⟨node, children⟩ => by
    rw [Snapshot.places, List.map_cons, map_placesBelow width way children]
    rfl

theorem map_placesBelow (width : Nat) (way : Way) : (snapshots : List Snapshot) →
    (placesBelow way snapshots).map (fun place => place.1.branch ++ place.2.title width) =
      treeLines width way.margin snapshots
  | [] => rfl
  | first :: rest => by
    rw [placesBelow, List.map_append, first.map_places, map_placesBelow width way rest,
      Way.branch_concat, Way.margin_concat]
    rfl

end

theorem Snapshot.lines_eq (width : Nat) (snapshot : Snapshot) :
    snapshot.lines width =
      (snapshot.places []).map fun place => place.1.branch ++ place.2.title width := by
  rw [snapshot.map_places, Snapshot.lines]
  simp [Way.branch, Way.margin]

mutual

theorem Snapshot.map_snd_places (way : Way) : (snapshot : Snapshot) →
    (snapshot.places way).map Prod.snd = snapshot.nodes
  | ⟨node, children⟩ => by
    rw [Snapshot.places, List.map_cons, map_snd_placesBelow way children]
    rfl

theorem map_snd_placesBelow (way : Way) : (snapshots : List Snapshot) →
    (placesBelow way snapshots).map Prod.snd = nodesBelow snapshots
  | [] => rfl
  | first :: rest => by
    rw [placesBelow, List.map_append, first.map_snd_places, map_snd_placesBelow way rest]
    rfl

end

/-- The way at the start of a line, and what is left of the line after it. -/
def readWay : List Char → Way × List Char
  | ' ' :: ' ' :: rest => (true :: (readWay rest).1, (readWay rest).2)
  | '│' :: ' ' :: rest => (false :: (readWay rest).1, (readWay rest).2)
  | '└' :: '─' :: ' ' :: rest => ([true], rest)
  | '├' :: '─' :: ' ' :: rest => ([false], rest)
  | text => ([], text)

def NodeKind.ofIcon? : Char → Option NodeKind
  | '⧉' => some .document
  | '§' => some .scope
  | '⚙' => some (.task .task)
  | '⫴' => some (.task .multitask)
  | '▤' => some (.task .file)
  | '▣' => some (.task .directory)
  | '⊕' => some .builder
  | '⇲' => some (.require false)
  | '⇱' => some (.require true)
  | _ => none

theorem NodeKind.exists_icon (kind : NodeKind) :
    ∃ c, kind.icon.toList = [c] ∧ NodeKind.ofIcon? c = some kind := by
  rcases kind with _ | _ | kind | _ | relative
  · exact ⟨_, rfl, rfl⟩
  · exact ⟨_, rfl, rfl⟩
  · cases kind <;> exact ⟨_, rfl, rfl⟩
  · exact ⟨_, rfl, rfl⟩
  · cases relative <;> exact ⟨_, rfl, rfl⟩

theorem readWay_icon {c : Char} {kind : NodeKind} (h : NodeKind.ofIcon? c = some kind)
    (text : List Char) : readWay (c :: text) = ([], c :: text) := by
  unfold readWay
  split
  all_goals simp_all [NodeKind.ofIcon?]

-- an icon ends the way: none of them can be the start of a gap or a corner
theorem readWay_branch (way : Way) {c : Char} {kind : NodeKind}
    (h : NodeKind.ofIcon? c = some kind) (text : List Char) :
    readWay (way.branch.toList ++ c :: text) = (way, c :: text) := by
  fun_induction Way.branch way with
  | case1 => exact readWay_icon h text
  | case2 last => cases last <;> rfl
  | case3 first second rest ih =>
    have hgap : ∀ more, readWay ((gap first).toList ++ more) =
        (first :: (readWay more).1, (readWay more).2) := by
      intro more
      cases first <;> rfl
    rw [String.toList_append, List.append_assoc, hgap, ih]

def Node.unlined (node : Node) : Node :=
  { node with line := none }

def readLine (line : List Char) : Option (Way × Node) :=
  match readWay line with
  | (way, c :: ' ' :: label) =>
    (NodeKind.ofIcon? c).map fun kind => (way, ⟨kind, String.ofList label, none⟩)
  | _ => none

/-- The label of the node stands on one line, and no part of it is cut off. -/
def Node.Fits (width : Nat) (node : Node) : Prop :=
  '\n' ∉ node.label.toList ∧ node.label.length ≤ width

instance (width : Nat) (node : Node) : Decidable (node.Fits width) :=
  inferInstanceAs (Decidable (_ ∧ _))

theorem Node.Fits.title_eq {width : Nat} {node : Node} (h : node.Fits width) :
    node.title width = node.kind.icon ++ " " ++ node.label := by
  rw [Node.title, truncate, if_neg (Nat.not_lt.mpr h.2)]

theorem Node.Fits.readLine_eq {width : Nat} {node : Node} (h : node.Fits width) (way : Way) :
    readLine (way.branch ++ node.title width).toList = some (way, node.unlined) := by
  obtain ⟨c, hicon, hc⟩ := node.kind.exists_icon
  have hline : (way.branch ++ node.title width).toList =
      way.branch.toList ++ c :: ' ' :: node.label.toList := by
    rw [h.title_eq, String.toList_append, String.toList_append, String.toList_append, hicon]
    rfl
  rw [hline, readLine, readWay_branch way hc]
  simp [hc, Node.unlined]

theorem newline_not_mem_branch (way : Way) : '\n' ∉ way.branch.toList := by
  fun_induction Way.branch way with
  | case1 => simp
  | case2 last => cases last <;> decide
  | case3 first second rest ih =>
    rw [String.toList_append, List.mem_append, not_or]
    refine ⟨?_, ih⟩
    cases first <;> decide

theorem NodeKind.newline_not_mem_icon (kind : NodeKind) : '\n' ∉ kind.icon.toList := by
  obtain ⟨c, hicon, hc⟩ := kind.exists_icon
  rw [hicon, List.mem_singleton]
  rintro rfl
  simp [NodeKind.ofIcon?] at hc

theorem Node.Fits.newline_not_mem {width : Nat} {node : Node} (h : node.Fits width) (way : Way) :
    '\n' ∉ (way.branch ++ node.title width).toList := by
  rw [h.title_eq]
  simp [newline_not_mem_branch, NodeKind.newline_not_mem_icon, h.1]

theorem Snapshot.fits_of_mem_places {width : Nat} {snapshot : Snapshot}
    (h : ∀ node ∈ snapshot.nodes, node.Fits width) {way : Way} :
    ∀ place ∈ snapshot.places way, place.2.Fits width := by
  intro place hm
  apply h
  rw [← snapshot.map_snd_places way]
  exact List.mem_map_of_mem hm

theorem Document.lines_tree {document : Document} {width : Nat}
    (h : ∀ node ∈ document.snapshot.nodes, node.Fits width) :
    lines (document.tree width).toList = (document.snapshot.places []).map fun place =>
      (place.1.branch ++ place.2.title width).toList ++ ['\n'] := by
  let texts := (document.snapshot.places []).map fun place =>
    (place.1.branch ++ place.2.title width).toList
  have htree : (document.tree width).toList = texts.flatMap (· ++ ['\n']) := by
    rw [Document.tree, Snapshot.lines_eq, String.toList_join]
    simp [texts, List.flatMap_map]
  have hinline : ∀ text ∈ texts, '\n' ∉ text := by
    intro text hm
    obtain ⟨place, hplace, rfl⟩ := List.mem_map.mp hm
    exact (Snapshot.fits_of_mem_places h place hplace).newline_not_mem place.1
  rw [htree, lines_flatMap hinline, List.map_map]
  rfl

mutual

def Snapshot.unlined : Snapshot → Snapshot
  | ⟨node, children⟩ => ⟨node.unlined, unlinedAll children⟩

def unlinedAll : List Snapshot → List Snapshot
  | [] => []
  | first :: rest => first.unlined :: unlinedAll rest

end

mutual

theorem Snapshot.places_unlined (way : Way) : (snapshot : Snapshot) →
    snapshot.unlined.places way =
      (snapshot.places way).map fun place => (place.1, place.2.unlined)
  | ⟨node, children⟩ => by
    rw [Snapshot.unlined, Snapshot.places, Snapshot.places, placesBelow_unlined way children]
    rfl

theorem placesBelow_unlined (way : Way) : (snapshots : List Snapshot) →
    placesBelow way (unlinedAll snapshots) =
      (placesBelow way snapshots).map fun place => (place.1, place.2.unlined)
  | [] => rfl
  | first :: rest => by
    have hempty : (unlinedAll rest).isEmpty = rest.isEmpty := by cases rest <;> rfl
    rw [unlinedAll, placesBelow, placesBelow, hempty, first.places_unlined,
      placesBelow_unlined way rest, List.map_append]

end

@[simp] theorem Snapshot.lines_unlined (width : Nat) (snapshot : Snapshot) :
    snapshot.unlined.lines width = snapshot.lines width := by
  rw [Snapshot.lines_eq, Snapshot.lines_eq, Snapshot.places_unlined, List.map_map]
  rfl

/-- Read line by line, a drawing gives back every node with the way down to it. -/
theorem Document.readLine_tree {document : Document} {width : Nat}
    (h : ∀ node ∈ document.snapshot.nodes, node.Fits width) :
    (lines (document.tree width).toList).map (fun line => readLine line.dropLast) =
      (document.snapshot.unlined.places []).map some := by
  rw [Document.lines_tree h, Snapshot.places_unlined, List.map_map, List.map_map]
  refine List.map_congr_left fun place hm => ?_
  have hfits := Snapshot.fits_of_mem_places h place hm
  simp only [Function.comp_apply, List.dropLast_concat, hfits.readLine_eq]

mutual

theorem Snapshot.length_le_of_mem_places (way : Way) : (snapshot : Snapshot) →
    ∀ place ∈ snapshot.places way, way.length ≤ place.1.length
  | ⟨node, children⟩ => by
    refine List.forall_mem_cons.mpr ⟨Nat.le_refl _, fun place hm => ?_⟩
    have hlt := length_lt_of_mem_placesBelow way children place hm
    omega

theorem length_lt_of_mem_placesBelow (way : Way) : (snapshots : List Snapshot) →
    ∀ place ∈ placesBelow way snapshots, way.length < place.1.length
  | [] => by simp [placesBelow]
  | first :: rest => by
    intro place hm
    rw [placesBelow] at hm
    rcases List.mem_append.mp hm with hm | hm
    · have hle := first.length_le_of_mem_places _ place hm
      simp only [List.length_append, List.length_singleton] at hle
      omega
    · exact length_lt_of_mem_placesBelow way rest place hm

end

theorem length_of_head?_placesBelow {way : Way} {snapshots : List Snapshot} {place : Way × Node}
    (h : place ∈ (placesBelow way snapshots).head?) : place.1.length = way.length + 1 := by
  cases snapshots with
  | nil => simp [placesBelow] at h
  | cons first rest =>
    cases first
    cases h
    simp

theorem placesBelow_inj (way : Way) : (first second : List Snapshot) →
    placesBelow way first = placesBelow way second → first = second
  | [], [], _ => rfl
  | [], ⟨_, _⟩ :: _, h => by simp [placesBelow, Snapshot.places] at h
  | ⟨_, _⟩ :: _, [], h => by simp [placesBelow, Snapshot.places] at h
  | ⟨node, children⟩ :: rest, ⟨other, others⟩ :: more, h => by
    simp only [placesBelow, Snapshot.places, List.cons_append, List.cons.injEq,
      Prod.mk.injEq] at h
    obtain ⟨⟨hway, rfl⟩, hbelow⟩ := h
    rw [← hway] at hbelow
    -- the nodes below the first tree are deeper than its root, and the next tree is not
    let deeper : Way × Node → Bool := fun place => way.length + 1 < place.1.length
    have hdeeper : ∀ snapshots, ∀ place ∈ placesBelow (way ++ [rest.isEmpty]) snapshots,
        deeper place = true := by
      intro snapshots place hm
      have hlt := length_lt_of_mem_placesBelow _ snapshots place hm
      rw [List.length_append, List.length_singleton] at hlt
      exact decide_eq_true hlt
    have hnext : ∀ snapshots, ∀ place ∈ (placesBelow way snapshots).head?,
        deeper place = false := by
      intro snapshots place hm
      have hlength := length_of_head?_placesBelow hm
      exact decide_eq_false (by omega)
    obtain ⟨hchildren, hrest⟩ := append_inj_of_head? hbelow (hdeeper children) (hdeeper others)
      (hnext rest) (hnext more)
    rw [placesBelow_inj _ children others hchildren, placesBelow_inj way rest more hrest]

theorem Snapshot.places_inj {way : Way} {first second : Snapshot}
    (h : first.places way = second.places way) : first = second := by
  obtain ⟨node, children⟩ := first
  obtain ⟨other, others⟩ := second
  simp only [Snapshot.places, List.cons.injEq, Prod.mk.injEq, true_and] at h
  obtain ⟨rfl, hbelow⟩ := h
  rw [placesBelow_inj way children others hbelow]

/-- Where all labels fit on their lines, two drawings are the same text only if the trees have the
same shape with the same kinds and labels. A drawing then has one line for each node, in the order
of the nodes: what the way down to the node leaves there, the icon of its kind and its label. -/
theorem drawings_are_uniquely_decodable (first second : Document) (width : Nat)
    (hfirst : ∀ node ∈ first.snapshot.nodes, node.Fits width)
    (hsecond : ∀ node ∈ second.snapshot.nodes, node.Fits width) :
    (first.tree width = second.tree width ↔ first.snapshot.unlined = second.snapshot.unlined) ∧
    (lines (first.tree width).toList).length = first.snapshot.nodeCount ∧
    lines (first.tree width).toList = (first.snapshot.places []).map (fun place =>
      (place.1.branch ++ place.2.kind.icon ++ " " ++ place.2.label ++ "\n").toList) ∧
    (first.snapshot.places []).map Prod.snd = first.snapshot.nodes := by
  have hnodes := first.snapshot.map_snd_places []
  refine ⟨⟨fun h => ?_, fun h => ?_⟩, ?_, ?_, hnodes⟩
  · have hplaces := Document.readLine_tree hfirst
    rw [h, Document.readLine_tree hsecond] at hplaces
    exact Snapshot.places_inj (List.map_injective_iff.mpr (Option.some_injective _) hplaces.symm)
  · rw [Document.tree, Document.tree, ← Snapshot.lines_unlined, h, Snapshot.lines_unlined]
  · rw [Document.lines_tree hfirst, List.length_map, ← Snapshot.length_nodes, ← hnodes,
      List.length_map]
  · rw [Document.lines_tree hfirst]
    refine List.map_congr_left fun place hm => ?_
    rw [(Snapshot.fits_of_mem_places hfirst place hm).title_eq]
    simp

theorem drawings_are_uniquely_decodable_of_branches :
    let outline := fun source => (scanTokens "└─ § R" (lex source) {} {}).1
    let first := outline "file '⚙ b' => 'c'\nnamespace :n do"
    let second := outline "\nfile '⚙ b' => 'c'\nnamespace :n do"
    (∀ node ∈ first.snapshot.nodes, node.Fits 12) ∧
    (∀ node ∈ second.snapshot.nodes, node.Fits 12) ∧
    first.snapshot.nodes ≠ second.snapshot.nodes ∧ first.tree 12 = second.tree 12 ∧
    first.snapshot.unlined = second.snapshot.unlined ∧
    (lines (first.tree 12).toList).length = 4 := by
  intro outline first second
  obtain ⟨hfirst, hsecond, hne, htree, hcount⟩ : (∀ node ∈ first.snapshot.nodes, node.Fits 12) ∧
      (∀ node ∈ second.snapshot.nodes, node.Fits 12) ∧
      first.snapshot.nodes ≠ second.snapshot.nodes ∧ first.tree 12 = second.tree 12 ∧
      first.snapshot.nodeCount = 4 := by
    decide +kernel
  have h := drawings_are_uniquely_decodable first second 12 hfirst hsecond
  exact ⟨hfirst, hsecond, hne, htree, h.1.mp htree, hcount ▸ h.2.1⟩

end RakeOutline
