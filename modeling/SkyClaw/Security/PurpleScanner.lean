import SkyClaw.Security.TextInspector
import Mathlib.Algebra.Order.Ring.Rat

/-!
# The Python scanner

`PurpleScanner` visits the syntax tree of a Python file and reports dangerous calls; `run_scan`
chooses the scanner by the extension and turns what the scan raises into findings.
-/

namespace SkyClaw.Security.PurpleScanner

open Regex PyRe
open TextInspector (Severity)

/-! ## Syntax trees -/

/-- A node of `ast`, with the fields that the scanner looks at; those of a node that is none of
its own are the nodes below it, in order. -/
inductive Node
  /-- A constant; the text of one that is a string. -/
  | constant (value : Option String)
  | name (id : String)
  | attribute (value : Node) (attr : String)
  | binOp (isAdd : Bool) (left right : Node)
  | call (func : Node) (args keywords : List Node) (lineno colOffset : Nat)
  | assign (targets : List Node) (value : Node)
  | importNames (names : List String) (lineno colOffset : Nat)
  | importFrom (module : Option String) (lineno colOffset : Nat)
  | other (children : List Node)

/-- A finding of this scanner. -/
structure Finding where
  message : String
  line : Nat
  col : Option Nat
  severity : Severity
  confidence : ℚ
  file : String
  /-- `matched_line`, of a payload. -/
  matchedLine : Option String

def dangerousSinks : List String :=
  [ "exec", "eval", "system", "popen", "subprocess.run", "subprocess.call", "subprocess.Popen",
    "compile", "os.system", "os.popen", "posix.system", "builtins.exec" ]

def obfuscationIndicators : List String :=
  ["getattr", "setattr", "chr", "ord", "base64.b64decode"]

/-! ## The visitor -/

structure Scanner where
  filename : String
  findings : List Finding
  taintedVars : List String
  constMap : List (String × String)

def Scanner.new (filename : String) : Scanner :=
  { filename := filename, findings := [], taintedVars := [], constMap := [] }

def Scanner.report (s : Scanner) (message : String) (lineno colOffset : Nat)
    (severity : Severity) (confidence : ℚ) : Scanner :=
  { s with
    findings := s.findings ++
      [{ message := message, line := lineno, col := some colOffset, severity := severity,
         confidence := confidence, file := s.filename, matchedLine := none }] }

def resolveConst (constMap : List (String × String)) : Node → Option String
  | .constant value => value
  | .binOp true left right =>
      match resolveConst constMap left, resolveConst constMap right with
      | some l, some r => some (l ++ r)
      | _, _ => none
  | .name id => constMap.lookup id
  | _ => none

def getFuncName : Node → String
  | .name id => id
  | .attribute value attr =>
      let base := getFuncName value
      if base = "" then attr else base ++ "." ++ attr
  | _ => ""

def isTaintedSource : Node → Bool
  | .call (.name id) _ _ _ _ => ["input", "open", "__import__"].contains id
  | .call (.attribute _ attr) _ _ _ _ => attr == "read"
  | _ => false

/-- A target of an assignment. -/
def Scanner.assignTo (value : Node) (valueConst : Option String) (s : Scanner) :
    Node → Scanner
  | .name id =>
      let constMap := match valueConst with
        | some text => (id, text) :: s.constMap
        | none => s.constMap
      { s with
        constMap := constMap
        taintedVars := if isTaintedSource value then id :: s.taintedVars
          else s.taintedVars.filter (· ≠ id) }
  | _ => s

/-- `visit_Assign`, before `generic_visit`. -/
def Scanner.visitAssign (s : Scanner) (targets : List Node) (value : Node) : Scanner :=
  targets.foldl (Scanner.assignTo value (resolveConst s.constMap value)) s

/-- Step 3 of `visit_Call`: a tainted variable among the arguments. -/
def Scanner.checkArgument (funcName : String) (lineno colOffset : Nat) (s : Scanner) :
    Node → Scanner
  | .name id =>
      if s.taintedVars.contains id && (dangerousSinks.contains funcName ||
          obfuscationIndicators.contains funcName) then
        s.report ("Variable sucia '" ++ id ++ "' fluyendo hacia sink '" ++ funcName ++ "'")
          lineno colOffset .high (9 / 10)
      else s
  | _ => s

/-- Step 2 of `visit_Call`: a sink by its name, through `getattr`. -/
def Scanner.checkGetattr (s : Scanner) (funcName : String) (args : List Node)
    (lineno colOffset : Nat) : Scanner :=
  match funcName == "getattr", args with
  | true, _ :: second :: _ =>
      match resolveConst s.constMap second with
      | some attrValue =>
          if dangerousSinks.contains attrValue then
            s.report ("Ofuscación por getattr detectada ('" ++ attrValue ++ "')")
              lineno colOffset .critical (95 / 100)
          else s
      | none => s
  | _, _ => s

/-- `visit_Call`, before `generic_visit`. -/
def Scanner.visitCall (s : Scanner) (func : Node) (args : List Node)
    (lineno colOffset : Nat) : Scanner :=
  let funcName := getFuncName func
  let s := if dangerousSinks.contains funcName then
      s.report ("Llamada a sink peligroso detectada: " ++ funcName) lineno colOffset .critical
        (9 / 10)
    else s
  let s := s.checkGetattr funcName args lineno colOffset
  let s := args.foldl (Scanner.checkArgument funcName lineno colOffset) s
  if obfuscationIndicators.contains funcName then
    s.report ("Indicador de ofuscación detectado: " ++ funcName) lineno colOffset .medium
      (7 / 10)
  else s

def Scanner.visitImport (s : Scanner) (names : List String) (lineno colOffset : Nat) : Scanner :=
  names.foldl (fun s name =>
    if ["os", "subprocess", "builtin", "importlib"].contains name then
      s.report ("Importación de módulo sensible: " ++ name) lineno colOffset .low (1 / 2)
    else s) s

def Scanner.visitImportFrom (s : Scanner) (module : Option String)
    (lineno colOffset : Nat) : Scanner :=
  match module with
  | some name =>
      if ["os", "subprocess", "importlib"].contains name then
        s.report ("Importación parcial de módulo sensible: " ++ name) lineno colOffset .low
          (9 / 10)
      else s
  | none => s

mutual

/-- `visit`, with `generic_visit`. -/
def visit : Node → Scanner → Scanner
  | .constant _, s => s
  | .name _, s => s
  | .attribute value _, s => visit value s
  | .binOp _ left right, s => visit right (visit left s)
  | .call func args keywords lineno colOffset, s =>
      visitAll keywords (visitAll args (visit func (s.visitCall func args lineno colOffset)))
  | .assign targets value, s => visit value (visitAll targets (s.visitAssign targets value))
  | .importNames names lineno colOffset, s => s.visitImport names lineno colOffset
  | .importFrom module lineno colOffset, s => s.visitImportFrom module lineno colOffset
  | .other children, s => visitAll children s

def visitAll : List Node → Scanner → Scanner
  | [], s => s
  | node :: nodes, s => visitAll nodes (visit node s)

end

def maliciousPayloadPatterns : List (Regex Char × String) :=
  [ (sequence [word "powershell", spaces1, word "-enc"],
      "Ofuscación PowerShell detectada: comando -enc"),
    (sequence [word "-WindowStyle", spaces1, word "Hidden"],
      "Ejecución oculta PowerShell detectada: -WindowStyle Hidden"),
    (sequence [word "vssadmin", spaces1, word "delete", spaces1, word "shadows"],
      "Comando ransomware detectado: eliminación de shadow copies"),
    (word "LoadLibrary", "Posible secuestro de DLL: LoadLibrary detectado"),
    (seq (word "rundll32") spaces1,
      "Invocación rundll32 detectada: posible secuestro de DLL") ]

/-- A character at which `str.splitlines` splits. -/
def isLineBreak (c : Char) : Bool := anyOf "\n\r\x0b\x0c\x1c\x1d\x1e\u0085\u2028\u2029" c

/-- `text.splitlines()`, with the line read so far reversed. -/
def splitLines : List Char → List Char → List (List Char)
  | [], [] => []
  | line, [] => [line.reverse]
  | line, '\r' :: '\n' :: rest => line.reverse :: splitLines [] rest
  | line, c :: rest =>
      if isLineBreak c then line.reverse :: splitLines [] rest else splitLines (c :: line) rest

def scanTextPayloads (content : List Char) (filename : String) : List Finding :=
  (splitLines [] content).zipIdx.flatMap fun (line, index) =>
    maliciousPayloadPatterns.filterMap fun (pattern, description) =>
      if contains pattern line then
        some { message := description, line := index + 1, col := none, severity := .critical,
               confidence := 95 / 100, file := filename,
               matchedLine := some (String.ofList
                 ((PyStr.strip (String.ofList line)).toList.take 200)) }
      else none

/-! ## `run_scan` -/

/-- `Path(filename).suffix.lower()`, of an ASCII suffix. -/
def suffixLower (filename : String) : List Char :=
  let reversedName := filename.toList.reverse.takeWhile (· ≠ '/')
  let extension := reversedName.takeWhile (· ≠ '.')
  if extension ≠ [] ∧ extension.length + 1 < reversedName.length then
    '.' :: extension.reverse.map Char.toLower
  else []

def textScanExtensions : List (List Char) := [".bat".toList, ".ps1".toList, ".ini".toList]

/-- What `ast.parse` raises. -/
inductive ParseError
  | syntaxError (lineno : Option Nat)
  /-- A null byte, a tree that is too deep, no memory. -/
  | other

/-- The `try` block of `run_scan` with its `except SyntaxError`; none if something else is
raised, in the parser or (`raises`) in the visitor. -/
def scanPython (parse : List Char → Except ParseError Node) (raises : Bool) (code : List Char)
    (filename : String) : Option (List Finding) :=
  match parse code with
  | .ok tree => if raises then none else some (visit tree (Scanner.new filename)).findings
  | .error (.syntaxError lineno) =>
      some
        [{ message := "Error de sintaxis (Posible código cifrado o malformado)"
           line := lineno.getD 0, col := none, severity := .critical, confidence := 1
           file := filename, matchedLine := none }]
  | .error .other => none

def runScan (parse : List Char → Except ParseError Node) (raises : Bool) (code : List Char)
    (filename : String) : List Finding :=
  if textScanExtensions.contains (suffixLower filename) then scanTextPayloads code filename
  else (scanPython parse raises code filename).getD []

/-- `filename.endswith(".py")`. -/
def isPython (filename : String) : Bool := ".py".toList.isSuffixOf filename.toList

/-- A file whose name ends in `.py` goes to the Python scanner. -/
theorem runScan_of_isPython {filename : String} (h : isPython filename = true)
    (parse : List Char → Except ParseError Node) (raises : Bool) (code : List Char) :
    runScan parse raises code filename = (scanPython parse raises code filename).getD [] := by
  obtain ⟨stem, hstem⟩ := List.isSuffixOf_iff_suffix.mp h
  have hreverse : filename.toList.reverse = 'y' :: 'p' :: '.' :: stem.reverse := by
    rw [← hstem, List.reverse_append]
    rfl
  have hsuffix : textScanExtensions.contains (suffixLower filename) = false := by
    unfold suffixLower
    rw [hreverse]
    have hname : List.takeWhile (fun c => decide (c ≠ '/')) ('y' :: 'p' :: '.' :: stem.reverse) =
        'y' :: 'p' :: '.' :: stem.reverse.takeWhile (fun c => decide (c ≠ '/')) := rfl
    have hextension : List.takeWhile (fun c => decide (c ≠ '.')) ('y' :: 'p' :: '.' ::
        stem.reverse.takeWhile (fun c => decide (c ≠ '/'))) = ['y', 'p'] := rfl
    rw [hname]
    dsimp only
    rw [hextension]
    split
    · decide
    · decide
  rw [runScan, if_neg (Bool.eq_false_iff.mp hsuffix)]

end SkyClaw.Security.PurpleScanner
