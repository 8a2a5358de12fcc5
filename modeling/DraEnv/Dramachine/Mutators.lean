import DraEnv.Foundation.Edit
import DraEnv.PyStd.ElementTree

/-!
The domain rewriter of `scripts/libvirt-qemu-hook/dramachine.py`.

Four mutators bring a libvirt domain into the shape the SR-IOV setup
needs: a q35 machine, an ioapic, an iommu and an igb interface. Each
returns whether it changed the tree, and the stream processor prints the
tree again only if one did.

Most of the code is one pattern: look for a child, append it if it is
missing, then set an attribute unless it has the value already, and
remember whether anything was done. `withChild` and `setUnless` are the
two halves of it.
-/

namespace DraEnv.Dramachine

open DraEnv.Foundation DraEnv.PyStd

def sriovNetworkName : PyStr := py "sriov-net"

/-- Two or more non-empty groups of decimal digits separated by dots: the
strings of the pattern `\d+(\.\d+)+`. -/
def isVersion (s : PyStr) : Bool :=
  let groups := s.splitOn '.'
  decide (2 ≤ groups.length) && groups.all fun group => !group.isEmpty && group.all isDecimal

/-- A string without one newline at its end, before which `$` also matches. -/
def chopNewline (s : PyStr) : PyStr := if s.getLast? = some '\n' then s.dropLast else s

/-- A match of `(-(\d+(\.\d+)+))$` that starts here. The version holds no newline,
so it reaches to the end or to a final newline. -/
def matchVersion : PyStr → Option PyStr
  | '-' :: rest => if isVersion (chopNewline rest) then some ('-' :: chopNewline rest) else none
  | _ => none

/-- `re.search(...).group(1)`: the leftmost match. -/
def searchVersion (s : PyStr) : Option PyStr := s.tails.findSome? matchVersion

/-- The q35 machine of the same version. -/
def newMachine (currentMachine : PyStr) : PyStr :=
  match searchVersion currentMachine with
  | some versionSuffix => py "pc-q35" ++ versionSuffix
  | none => py "q35"

def ensureMachineType (root : Element) : Element × Bool :=
  match root.findPath (py "os") (py "type") with
  | none => (root, false)
  | some typeElem =>
      let currentMachine := (typeElem.get (py "machine")).getD []
      if contains (py "q35") currentMachine then (root, false)
      else if newMachine currentMachine ≠ currentMachine then
        (root.updatePath (py "os") (py "type") fun e =>
          e.set (py "machine") (newMachine currentMachine), true)
      else (root, false)

/-- `if e.get(key) != value: e.set(key, value); modified = True` -/
def setUnless (key value : PyStr) : Edit Element := fun e =>
  if e.get key ≠ some value then (e.set key value, true) else (e, false)

/-- `child = e.find(tag)`, or a new one and `modified = True`, and then `k` on
it. -/
def withChild (tag : PyStr) (k : Edit Element) : Edit Element := fun e =>
  e.atChild tag fun created child =>
    let (child, modified) := k child
    (child, created || modified)

def ensureIoapic : Edit Element :=
  withChild (py "features") <| withChild (py "ioapic") <| setUnless (py "driver") (py "qemu")

def ensureIommu : Edit Element :=
  withChild (py "devices") <| withChild (py "iommu") <|
    andThen (setUnless (py "model") (py "intel")) <|
      withChild (py "driver") <|
        andThen (setUnless (py "intremap") (py "on")) (setUnless (py "iotlb") (py "on"))

/-- A network interface whose first model is `igb`. -/
def isIgb (interface : Element) : Bool :=
  interface.get (py "type") == some (py "network") &&
    match interface.find (py "model") with
    | some model => model.get (py "type") == some (py "igb")
    | none => false

def newInterface : Element :=
  (((Element.new (py "interface")).set (py "type") (py "network")).append
      ((Element.new (py "source")).set (py "network") sriovNetworkName)).append
    ((Element.new (py "model")).set (py "type") (py "igb"))

def addIgb (devices : Element) : Element × Bool :=
  if (devices.findall (py "interface")).any isIgb then (devices, false)
  else (devices.append newInterface, true)

/-- Unlike the others this one does not return its `modified`: it returns
`False` where it finds an interface and `True` where it adds one. -/
def ensureIgbInterface (root : Element) : Element × Bool :=
  root.atChild (py "devices") fun _ devices => addIgb devices

/-- The four mutators in the order `process_xml_stream` runs them, with
`changes_made`. -/
def mutate : Edit Element :=
  andThen (andThen (andThen ensureMachineType ensureIoapic) ensureIommu) ensureIgbInterface

/-- The name test of `process_xml_stream`. -/
def isWorker (root : Element) : Bool :=
  match root.find (py "name") with
  | none => false
  | some nameElem =>
      match nameElem.text with
      | none => false
      | some text => (py "minikube-m").isPrefixOf text

/-- The exceptions the stream processor tells apart, the second with its text. -/
inductive XmlError where
  | parseError
  | exception (e : PyStr)
  deriving DecidableEq, Repr

def XmlError.message : XmlError → PyStr
  | parseError => py "Error: Failed to parse XML input.\n"
  | exception e => py "Error: " ++ e ++ py "\n"

/-- The parser and the serialiser of `ElementTree`. Either may raise: the parser
also for an encoding it does not know, the serialiser for a tree too deep for
its recursion, and then with a part of the document written. -/
structure XmlCodec where
  /-- `ET.fromstring` -/
  fromstring : PyBytes → Except XmlError Element
  /-- `tree.write(..., encoding="UTF-8", xml_declaration=True)`; what was written
  and the text of the exception, where there is one. -/
  write : Element → Except (PyBytes × PyStr) PyBytes
  /-- No element is found in an empty document. -/
  fromstring_nil : fromstring [] = .error .parseError

structure StreamResult where
  code : Nat
  stdout : PyBytes
  stderr : PyStr
  deriving DecidableEq, Repr

def processXmlStream (et : XmlCodec) (xmlData : PyBytes) : StreamResult :=
  if xmlData = [] then ⟨0, [], []⟩
  else
    match et.fromstring xmlData with
    | .error err => ⟨1, [], err.message⟩
    | .ok root =>
        if isWorker root then
          let (root, changesMade) := mutate root
          if changesMade then
            match et.write root with
            | .ok text => ⟨0, text, []⟩
            | .error (written, e) => ⟨1, written, (XmlError.exception e).message⟩
          else ⟨0, xmlData, []⟩
        else ⟨0, xmlData, []⟩

end DraEnv.Dramachine
