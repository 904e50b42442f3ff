import OnePassJit.Config
import OnePassJit.Elf.StringTable

/-!
Relocatable ELF64 objects holding compiled functions.

Compiled code is position independent and has no relocations, so an object is one
`.text` section, with every function at a multiple of 16 bytes and zero bytes between
functions, and one global hidden function symbol per function. Around it stand the
symbol table, the string table of symbol names and that of section names, each at
the alignment of its entries, then the section headers. `.text` exists once a
function has been added.
-/

namespace OnePassJit.Elf

def Arch.machine : Arch → Nat
  | .amd64 => 62
  | .arm64 => 183

/-- A function in `.text`. -/
structure FunctionSymbol where
  name : String
  offset : Nat
  size : Nat

/-- An object file being filled with functions. -/
structure ObjectFile where
  arch : Arch
  text : ByteArray := ByteArray.empty
  symbols : Array FunctionSymbol := #[]

def functionAlign : Nat := 16

def alignUp (n a : Nat) : Nat := (n + a - 1) / a * a

def littleEndian : Nat → Nat → List UInt8
  | 0, _ => []
  | n + 1, v => (v % 256).toUInt8 :: littleEndian n (v / 256)

def padding (n a : Nat) : List UInt8 := List.replicate (alignUp n a - n) 0

/-- A section header. -/
structure SectionHeader where
  name : Nat := 0
  kind : Nat := 0
  flags : Nat := 0
  offset : Nat := 0
  size : Nat := 0
  link : Nat := 0
  info : Nat := 0
  align : Nat := 0
  entrySize : Nat := 0

def SectionHeader.null : SectionHeader := { name := 0 }

def SectionHeader.encode (h : SectionHeader) : List UInt8 :=
  littleEndian 4 h.name ++ littleEndian 4 h.kind ++ littleEndian 8 h.flags ++
    littleEndian 8 0 ++ littleEndian 8 h.offset ++ littleEndian 8 h.size ++
    littleEndian 4 h.link ++ littleEndian 4 h.info ++ littleEndian 8 h.align ++
    littleEndian 8 h.entrySize

def headerSize : Nat := 64

def symbolSize : Nat := 24

namespace ObjectFile

def new (arch : Arch) : ObjectFile := { arch }

def functionCount (o : ObjectFile) : Nat := o.symbols.size

def isEmpty (o : ObjectFile) : Bool := o.symbols.isEmpty

/-- Append `code` as the function `name`; answers its offset in `.text`. -/
def addFunction (o : ObjectFile) (name : String) (code : ByteArray) : ObjectFile × Nat :=
  let offset := alignUp o.text.size functionAlign
  let text := o.text ++ ⟨(padding o.text.size functionAlign).toArray⟩ ++ code
  ({ o with text, symbols := o.symbols.push { name, offset, size := code.size } }, offset)

def symbolEntry (names : StringTable) (f : FunctionSymbol) : List UInt8 :=
  littleEndian 4 (names.offset f.name) ++ [0x12, 0x02] ++ littleEndian 2 1 ++
    littleEndian 8 f.offset ++ littleEndian 8 f.size

def write (o : ObjectFile) : ByteArray :=
  let hasText := !o.isEmpty
  let textIndex := if hasText then 1 else 0
  let symtabIndex := textIndex + 1
  let sectionNames := (if hasText then [".text"] else []) ++ [".symtab", ".strtab", ".shstrtab"]
  let shstrtab := StringTable.build sectionNames
  let strtab := StringTable.build (o.symbols.toList.map (·.name))
  let symtab := List.replicate symbolSize 0 ++ o.symbols.toList.flatMap (symbolEntry strtab)
  -- An empty section takes no alignment.
  let textOffset := if o.text.size == 0 then headerSize else alignUp headerSize functionAlign
  let textEnd := textOffset + o.text.size
  let symtabOffset := alignUp textEnd 8
  let strtabOffset := symtabOffset + symtab.length
  let shstrtabOffset := strtabOffset + strtab.bytes.size
  let dataEnd := shstrtabOffset + shstrtab.bytes.size
  let headersOffset := alignUp dataEnd 8
  let text : List SectionHeader := if hasText then
      [{ name := shstrtab.offset ".text", kind := 1, flags := 6, offset := textOffset,
         size := o.text.size, align := functionAlign }]
    else []
  let sections : List SectionHeader := [SectionHeader.null] ++ text ++
    [{ name := shstrtab.offset ".symtab", kind := 2, offset := symtabOffset,
       size := symtab.length, link := symtabIndex + 1, info := 1, align := 8,
       entrySize := symbolSize },
     { name := shstrtab.offset ".strtab", kind := 3, offset := strtabOffset,
       size := strtab.bytes.size, align := 1 },
     { name := shstrtab.offset ".shstrtab", kind := 3, offset := shstrtabOffset,
       size := shstrtab.bytes.size, align := 1 }]
  let ident : List UInt8 := [0x7f, 0x45, 0x4c, 0x46, 2, 1, 1] ++ List.replicate 9 0
  let header := ident ++ littleEndian 2 1 ++ littleEndian 2 (Arch.machine o.arch) ++
    littleEndian 4 1 ++ littleEndian 8 0 ++ littleEndian 8 0 ++
    littleEndian 8 headersOffset ++ littleEndian 4 0 ++ littleEndian 2 headerSize ++
    littleEndian 2 0 ++ littleEndian 2 0 ++ littleEndian 2 headerSize ++
    littleEndian 2 sections.length ++ littleEndian 2 (sections.length - 1)
  let beforeText := header ++ List.replicate (textOffset - headerSize) 0
  let afterText := List.replicate (symtabOffset - textEnd) 0 ++ symtab ++
    strtab.bytes.toList ++ shstrtab.bytes.toList ++
    List.replicate (headersOffset - dataEnd) 0 ++ sections.flatMap SectionHeader.encode
  ⟨beforeText.toArray⟩ ++ o.text ++ ⟨afterText.toArray⟩

/-- An object of `arch` holding `codes` in order as `func0`, `func1`, …, with the
offset of each. -/
def ofFunctions (arch : Arch) (codes : List ByteArray) : ObjectFile × List Nat :=
  let step (acc : ObjectFile × List Nat) (entry : Nat × ByteArray) :=
    let (o, offsets) := (acc.1.addFunction ("func" ++ toString entry.1) entry.2)
    (o, acc.2 ++ [offsets])
  (List.range codes.length).zip codes |>.foldl step (new arch, [])

end ObjectFile

end OnePassJit.Elf
