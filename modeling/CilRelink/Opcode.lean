/-!
# Opcodes

The opcodes of the common intermediate language. An opcode has a code: the byte it is encoded as, or, for the
opcodes of two bytes that begin with `0xFE`, both bytes as one number. All else that the standard says of it (its
mnemonic, what operand follows it, how control flows after it) stands in its row of one table.
-/
namespace CilRelink

/-- What follows an opcode in the code. -/
inductive OperandKind where
  | none
  | int8
  | uint8
  | int32
  | int64
  | float32
  | float64
  | shortArgument
  | argument
  | shortLocalVariable
  | localVariable
  | shortBranch
  | branch
  | switch
  | field
  | method
  | type
  | string
  | symbol
  | signature
deriving DecidableEq

namespace OperandKind

/-- The number of bytes the operand takes; that of a jump table depends on its length. -/
def size? : OperandKind → Option Nat
  | .none => some 0
  | .int8 | .uint8 | .shortArgument | .shortLocalVariable | .shortBranch => some 1
  | .argument | .localVariable => some 2
  | .int32 | .float32 | .branch | .field | .method | .type | .string | .symbol | .signature => some 4
  | .int64 | .float64 => some 8
  | .switch => Option.none

/-- The name of the kind. -/
def name : OperandKind → String
  | .none => "None"
  | .int8 => "Int8"
  | .uint8 => "UInt8"
  | .int32 => "Int32"
  | .int64 => "Int64"
  | .float32 => "Float32"
  | .float64 => "Float64"
  | .shortArgument => "ShortArgument"
  | .argument => "Argument"
  | .shortLocalVariable => "ShortLocal"
  | .localVariable => "Local"
  | .shortBranch => "ShortBranch"
  | .branch => "Branch"
  | .switch => "Switch"
  | .field => "Field"
  | .method => "Method"
  | .type => "Type"
  | .string => "String"
  | .symbol => "Symbol"
  | .signature => "Signature"

end OperandKind

/-- Where control goes after an instruction. -/
inductive Flow where
  | sequential
  | conditionalBranch
  | unconditionalBranch
  | call
  | leaveMethod
  | multiwayBranch
  | raise
  | endHandler
  | leaveRegion
deriving DecidableEq

/-- The name of the flow. -/
def Flow.name : Flow → String
  | .sequential => "Sequential"
  | .conditionalBranch => "ConditionalBranch"
  | .unconditionalBranch => "UnconditionalBranch"
  | .call => "Call"
  | .leaveMethod => "Return"
  | .multiwayBranch => "Switch"
  | .raise => "Throw"
  | .endHandler => "EndFinally"
  | .leaveRegion => "Leave"

/-- An opcode. -/
inductive Opcode where
  | nop | breakpoint | ldarg0 | ldarg1 | ldarg2 | ldarg3 | ldloc0 | ldloc1 | ldloc2 | ldloc3 | stloc0 | stloc1
  | stloc2 | stloc3 | ldargS | ldargaS | stargS | ldlocS | ldlocaS | stlocS | ldnull | ldcI4M1 | ldcI4_0
  | ldcI4_1 | ldcI4_2 | ldcI4_3 | ldcI4_4 | ldcI4_5 | ldcI4_6 | ldcI4_7 | ldcI4_8 | ldcI4S | ldcI4 | ldcI8
  | ldcR4 | ldcR8 | dup | pop | jmp | call | calli | ret | brS | brfalseS | brtrueS | beqS | bgeS | bgtS | bleS
  | bltS | bneUnS | bgeUnS | bgtUnS | bleUnS | bltUnS | br | brfalse | brtrue | beq | bge | bgt | ble | blt
  | bneUn | bgeUn | bgtUn | bleUn | bltUn | switch | ldindI1 | ldindU1 | ldindI2 | ldindU2 | ldindI4 | ldindU4
  | ldindI8 | ldindI | ldindR4 | ldindR8 | ldindRef | stindRef | stindI1 | stindI2 | stindI4 | stindI8 | stindR4
  | stindR8 | add | sub | mul | div | divUn | rem | remUn | bitAnd | bitOr | bitXor | shl | shr | shrUn | neg
  | bitNot | convI1 | convI2 | convI4 | convI8 | convR4 | convR8 | convU4 | convU8 | callvirt | cpobj | ldobj
  | ldstr | newobj | castclass | isinst | convRUn | unbox | throwObject | ldfld | ldflda | stfld | ldsfld
  | ldsflda | stsfld | stobj | convOvfI1Un | convOvfI2Un | convOvfI4Un | convOvfI8Un | convOvfU1Un | convOvfU2Un
  | convOvfU4Un | convOvfU8Un | convOvfIUn | convOvfUUn | box | newarr | ldlen | ldelema | ldelemI1 | ldelemU1
  | ldelemI2 | ldelemU2 | ldelemI4 | ldelemU4 | ldelemI8 | ldelemI | ldelemR4 | ldelemR8 | ldelemRef | stelemI
  | stelemI1 | stelemI2 | stelemI4 | stelemI8 | stelemR4 | stelemR8 | stelemRef | ldelem | stelem | unboxAny
  | convOvfI1 | convOvfU1 | convOvfI2 | convOvfU2 | convOvfI4 | convOvfU4 | convOvfI8 | convOvfU8 | refanyval
  | ckfinite | mkrefany | ldtoken | convU2 | convU1 | convI | convOvfI | convOvfU | addOvf | addOvfUn | mulOvf
  | mulOvfUn | subOvf | subOvfUn | endfinally | leave | leaveS | stindI | convU | arglist | ceq | cgt | cgtUn
  | clt | cltUn | ldftn | ldvirtftn | ldarg | ldarga | starg | ldloc | ldloca | stloc | localloc | endfilter
  | unaligned | volatile | tail | initobj | constrained | cpblk | initblk | noCheck | rethrow | sizeof
  | refanytype | readonly
deriving DecidableEq

/-- What the standard says of an opcode. -/
structure OpcodeRow where
  code : Nat
  mnemonic : String
  operand : OperandKind
  flow : Flow

/-- The row of an opcode. -/
def Opcode.row : Opcode → OpcodeRow
  | .nop => ⟨0x00, "nop", .none, .sequential⟩
  | .breakpoint => ⟨0x01, "break", .none, .sequential⟩
  | .ldarg0 => ⟨0x02, "ldarg.0", .none, .sequential⟩
  | .ldarg1 => ⟨0x03, "ldarg.1", .none, .sequential⟩
  | .ldarg2 => ⟨0x04, "ldarg.2", .none, .sequential⟩
  | .ldarg3 => ⟨0x05, "ldarg.3", .none, .sequential⟩
  | .ldloc0 => ⟨0x06, "ldloc.0", .none, .sequential⟩
  | .ldloc1 => ⟨0x07, "ldloc.1", .none, .sequential⟩
  | .ldloc2 => ⟨0x08, "ldloc.2", .none, .sequential⟩
  | .ldloc3 => ⟨0x09, "ldloc.3", .none, .sequential⟩
  | .stloc0 => ⟨0x0A, "stloc.0", .none, .sequential⟩
  | .stloc1 => ⟨0x0B, "stloc.1", .none, .sequential⟩
  | .stloc2 => ⟨0x0C, "stloc.2", .none, .sequential⟩
  | .stloc3 => ⟨0x0D, "stloc.3", .none, .sequential⟩
  | .ldargS => ⟨0x0E, "ldarg.s", .shortArgument, .sequential⟩
  | .ldargaS => ⟨0x0F, "ldarga.s", .shortArgument, .sequential⟩
  | .stargS => ⟨0x10, "starg.s", .shortArgument, .sequential⟩
  | .ldlocS => ⟨0x11, "ldloc.s", .shortLocalVariable, .sequential⟩
  | .ldlocaS => ⟨0x12, "ldloca.s", .shortLocalVariable, .sequential⟩
  | .stlocS => ⟨0x13, "stloc.s", .shortLocalVariable, .sequential⟩
  | .ldnull => ⟨0x14, "ldnull", .none, .sequential⟩
  | .ldcI4M1 => ⟨0x15, "ldc.i4.m1", .none, .sequential⟩
  | .ldcI4_0 => ⟨0x16, "ldc.i4.0", .none, .sequential⟩
  | .ldcI4_1 => ⟨0x17, "ldc.i4.1", .none, .sequential⟩
  | .ldcI4_2 => ⟨0x18, "ldc.i4.2", .none, .sequential⟩
  | .ldcI4_3 => ⟨0x19, "ldc.i4.3", .none, .sequential⟩
  | .ldcI4_4 => ⟨0x1A, "ldc.i4.4", .none, .sequential⟩
  | .ldcI4_5 => ⟨0x1B, "ldc.i4.5", .none, .sequential⟩
  | .ldcI4_6 => ⟨0x1C, "ldc.i4.6", .none, .sequential⟩
  | .ldcI4_7 => ⟨0x1D, "ldc.i4.7", .none, .sequential⟩
  | .ldcI4_8 => ⟨0x1E, "ldc.i4.8", .none, .sequential⟩
  | .ldcI4S => ⟨0x1F, "ldc.i4.s", .int8, .sequential⟩
  | .ldcI4 => ⟨0x20, "ldc.i4", .int32, .sequential⟩
  | .ldcI8 => ⟨0x21, "ldc.i8", .int64, .sequential⟩
  | .ldcR4 => ⟨0x22, "ldc.r4", .float32, .sequential⟩
  | .ldcR8 => ⟨0x23, "ldc.r8", .float64, .sequential⟩
  | .dup => ⟨0x25, "dup", .none, .sequential⟩
  | .pop => ⟨0x26, "pop", .none, .sequential⟩
  | .jmp => ⟨0x27, "jmp", .method, .call⟩
  | .call => ⟨0x28, "call", .method, .call⟩
  | .calli => ⟨0x29, "calli", .signature, .call⟩
  | .ret => ⟨0x2A, "ret", .none, .leaveMethod⟩
  | .brS => ⟨0x2B, "br.s", .shortBranch, .unconditionalBranch⟩
  | .brfalseS => ⟨0x2C, "brfalse.s", .shortBranch, .conditionalBranch⟩
  | .brtrueS => ⟨0x2D, "brtrue.s", .shortBranch, .conditionalBranch⟩
  | .beqS => ⟨0x2E, "beq.s", .shortBranch, .conditionalBranch⟩
  | .bgeS => ⟨0x2F, "bge.s", .shortBranch, .conditionalBranch⟩
  | .bgtS => ⟨0x30, "bgt.s", .shortBranch, .conditionalBranch⟩
  | .bleS => ⟨0x31, "ble.s", .shortBranch, .conditionalBranch⟩
  | .bltS => ⟨0x32, "blt.s", .shortBranch, .conditionalBranch⟩
  | .bneUnS => ⟨0x33, "bne.un.s", .shortBranch, .conditionalBranch⟩
  | .bgeUnS => ⟨0x34, "bge.un.s", .shortBranch, .conditionalBranch⟩
  | .bgtUnS => ⟨0x35, "bgt.un.s", .shortBranch, .conditionalBranch⟩
  | .bleUnS => ⟨0x36, "ble.un.s", .shortBranch, .conditionalBranch⟩
  | .bltUnS => ⟨0x37, "blt.un.s", .shortBranch, .conditionalBranch⟩
  | .br => ⟨0x38, "br", .branch, .unconditionalBranch⟩
  | .brfalse => ⟨0x39, "brfalse", .branch, .conditionalBranch⟩
  | .brtrue => ⟨0x3A, "brtrue", .branch, .conditionalBranch⟩
  | .beq => ⟨0x3B, "beq", .branch, .conditionalBranch⟩
  | .bge => ⟨0x3C, "bge", .branch, .conditionalBranch⟩
  | .bgt => ⟨0x3D, "bgt", .branch, .conditionalBranch⟩
  | .ble => ⟨0x3E, "ble", .branch, .conditionalBranch⟩
  | .blt => ⟨0x3F, "blt", .branch, .conditionalBranch⟩
  | .bneUn => ⟨0x40, "bne.un", .branch, .conditionalBranch⟩
  | .bgeUn => ⟨0x41, "bge.un", .branch, .conditionalBranch⟩
  | .bgtUn => ⟨0x42, "bgt.un", .branch, .conditionalBranch⟩
  | .bleUn => ⟨0x43, "ble.un", .branch, .conditionalBranch⟩
  | .bltUn => ⟨0x44, "blt.un", .branch, .conditionalBranch⟩
  | .switch => ⟨0x45, "switch", .switch, .multiwayBranch⟩
  | .ldindI1 => ⟨0x46, "ldind.i1", .none, .sequential⟩
  | .ldindU1 => ⟨0x47, "ldind.u1", .none, .sequential⟩
  | .ldindI2 => ⟨0x48, "ldind.i2", .none, .sequential⟩
  | .ldindU2 => ⟨0x49, "ldind.u2", .none, .sequential⟩
  | .ldindI4 => ⟨0x4A, "ldind.i4", .none, .sequential⟩
  | .ldindU4 => ⟨0x4B, "ldind.u4", .none, .sequential⟩
  | .ldindI8 => ⟨0x4C, "ldind.i8", .none, .sequential⟩
  | .ldindI => ⟨0x4D, "ldind.i", .none, .sequential⟩
  | .ldindR4 => ⟨0x4E, "ldind.r4", .none, .sequential⟩
  | .ldindR8 => ⟨0x4F, "ldind.r8", .none, .sequential⟩
  | .ldindRef => ⟨0x50, "ldind.ref", .none, .sequential⟩
  | .stindRef => ⟨0x51, "stind.ref", .none, .sequential⟩
  | .stindI1 => ⟨0x52, "stind.i1", .none, .sequential⟩
  | .stindI2 => ⟨0x53, "stind.i2", .none, .sequential⟩
  | .stindI4 => ⟨0x54, "stind.i4", .none, .sequential⟩
  | .stindI8 => ⟨0x55, "stind.i8", .none, .sequential⟩
  | .stindR4 => ⟨0x56, "stind.r4", .none, .sequential⟩
  | .stindR8 => ⟨0x57, "stind.r8", .none, .sequential⟩
  | .add => ⟨0x58, "add", .none, .sequential⟩
  | .sub => ⟨0x59, "sub", .none, .sequential⟩
  | .mul => ⟨0x5A, "mul", .none, .sequential⟩
  | .div => ⟨0x5B, "div", .none, .sequential⟩
  | .divUn => ⟨0x5C, "div.un", .none, .sequential⟩
  | .rem => ⟨0x5D, "rem", .none, .sequential⟩
  | .remUn => ⟨0x5E, "rem.un", .none, .sequential⟩
  | .bitAnd => ⟨0x5F, "and", .none, .sequential⟩
  | .bitOr => ⟨0x60, "or", .none, .sequential⟩
  | .bitXor => ⟨0x61, "xor", .none, .sequential⟩
  | .shl => ⟨0x62, "shl", .none, .sequential⟩
  | .shr => ⟨0x63, "shr", .none, .sequential⟩
  | .shrUn => ⟨0x64, "shr.un", .none, .sequential⟩
  | .neg => ⟨0x65, "neg", .none, .sequential⟩
  | .bitNot => ⟨0x66, "not", .none, .sequential⟩
  | .convI1 => ⟨0x67, "conv.i1", .none, .sequential⟩
  | .convI2 => ⟨0x68, "conv.i2", .none, .sequential⟩
  | .convI4 => ⟨0x69, "conv.i4", .none, .sequential⟩
  | .convI8 => ⟨0x6A, "conv.i8", .none, .sequential⟩
  | .convR4 => ⟨0x6B, "conv.r4", .none, .sequential⟩
  | .convR8 => ⟨0x6C, "conv.r8", .none, .sequential⟩
  | .convU4 => ⟨0x6D, "conv.u4", .none, .sequential⟩
  | .convU8 => ⟨0x6E, "conv.u8", .none, .sequential⟩
  | .callvirt => ⟨0x6F, "callvirt", .method, .call⟩
  | .cpobj => ⟨0x70, "cpobj", .type, .sequential⟩
  | .ldobj => ⟨0x71, "ldobj", .type, .sequential⟩
  | .ldstr => ⟨0x72, "ldstr", .string, .sequential⟩
  | .newobj => ⟨0x73, "newobj", .method, .call⟩
  | .castclass => ⟨0x74, "castclass", .type, .sequential⟩
  | .isinst => ⟨0x75, "isinst", .type, .sequential⟩
  | .convRUn => ⟨0x76, "conv.r.un", .none, .sequential⟩
  | .unbox => ⟨0x79, "unbox", .type, .sequential⟩
  | .throwObject => ⟨0x7A, "throw", .none, .raise⟩
  | .ldfld => ⟨0x7B, "ldfld", .field, .sequential⟩
  | .ldflda => ⟨0x7C, "ldflda", .field, .sequential⟩
  | .stfld => ⟨0x7D, "stfld", .field, .sequential⟩
  | .ldsfld => ⟨0x7E, "ldsfld", .field, .sequential⟩
  | .ldsflda => ⟨0x7F, "ldsflda", .field, .sequential⟩
  | .stsfld => ⟨0x80, "stsfld", .field, .sequential⟩
  | .stobj => ⟨0x81, "stobj", .type, .sequential⟩
  | .convOvfI1Un => ⟨0x82, "conv.ovf.i1.un", .none, .sequential⟩
  | .convOvfI2Un => ⟨0x83, "conv.ovf.i2.un", .none, .sequential⟩
  | .convOvfI4Un => ⟨0x84, "conv.ovf.i4.un", .none, .sequential⟩
  | .convOvfI8Un => ⟨0x85, "conv.ovf.i8.un", .none, .sequential⟩
  | .convOvfU1Un => ⟨0x86, "conv.ovf.u1.un", .none, .sequential⟩
  | .convOvfU2Un => ⟨0x87, "conv.ovf.u2.un", .none, .sequential⟩
  | .convOvfU4Un => ⟨0x88, "conv.ovf.u4.un", .none, .sequential⟩
  | .convOvfU8Un => ⟨0x89, "conv.ovf.u8.un", .none, .sequential⟩
  | .convOvfIUn => ⟨0x8A, "conv.ovf.i.un", .none, .sequential⟩
  | .convOvfUUn => ⟨0x8B, "conv.ovf.u.un", .none, .sequential⟩
  | .box => ⟨0x8C, "box", .type, .sequential⟩
  | .newarr => ⟨0x8D, "newarr", .type, .sequential⟩
  | .ldlen => ⟨0x8E, "ldlen", .none, .sequential⟩
  | .ldelema => ⟨0x8F, "ldelema", .type, .sequential⟩
  | .ldelemI1 => ⟨0x90, "ldelem.i1", .none, .sequential⟩
  | .ldelemU1 => ⟨0x91, "ldelem.u1", .none, .sequential⟩
  | .ldelemI2 => ⟨0x92, "ldelem.i2", .none, .sequential⟩
  | .ldelemU2 => ⟨0x93, "ldelem.u2", .none, .sequential⟩
  | .ldelemI4 => ⟨0x94, "ldelem.i4", .none, .sequential⟩
  | .ldelemU4 => ⟨0x95, "ldelem.u4", .none, .sequential⟩
  | .ldelemI8 => ⟨0x96, "ldelem.i8", .none, .sequential⟩
  | .ldelemI => ⟨0x97, "ldelem.i", .none, .sequential⟩
  | .ldelemR4 => ⟨0x98, "ldelem.r4", .none, .sequential⟩
  | .ldelemR8 => ⟨0x99, "ldelem.r8", .none, .sequential⟩
  | .ldelemRef => ⟨0x9A, "ldelem.ref", .none, .sequential⟩
  | .stelemI => ⟨0x9B, "stelem.i", .none, .sequential⟩
  | .stelemI1 => ⟨0x9C, "stelem.i1", .none, .sequential⟩
  | .stelemI2 => ⟨0x9D, "stelem.i2", .none, .sequential⟩
  | .stelemI4 => ⟨0x9E, "stelem.i4", .none, .sequential⟩
  | .stelemI8 => ⟨0x9F, "stelem.i8", .none, .sequential⟩
  | .stelemR4 => ⟨0xA0, "stelem.r4", .none, .sequential⟩
  | .stelemR8 => ⟨0xA1, "stelem.r8", .none, .sequential⟩
  | .stelemRef => ⟨0xA2, "stelem.ref", .none, .sequential⟩
  | .ldelem => ⟨0xA3, "ldelem", .type, .sequential⟩
  | .stelem => ⟨0xA4, "stelem", .type, .sequential⟩
  | .unboxAny => ⟨0xA5, "unbox.any", .type, .sequential⟩
  | .convOvfI1 => ⟨0xB3, "conv.ovf.i1", .none, .sequential⟩
  | .convOvfU1 => ⟨0xB4, "conv.ovf.u1", .none, .sequential⟩
  | .convOvfI2 => ⟨0xB5, "conv.ovf.i2", .none, .sequential⟩
  | .convOvfU2 => ⟨0xB6, "conv.ovf.u2", .none, .sequential⟩
  | .convOvfI4 => ⟨0xB7, "conv.ovf.i4", .none, .sequential⟩
  | .convOvfU4 => ⟨0xB8, "conv.ovf.u4", .none, .sequential⟩
  | .convOvfI8 => ⟨0xB9, "conv.ovf.i8", .none, .sequential⟩
  | .convOvfU8 => ⟨0xBA, "conv.ovf.u8", .none, .sequential⟩
  | .refanyval => ⟨0xC2, "refanyval", .type, .sequential⟩
  | .ckfinite => ⟨0xC3, "ckfinite", .none, .sequential⟩
  | .mkrefany => ⟨0xC6, "mkrefany", .type, .sequential⟩
  | .ldtoken => ⟨0xD0, "ldtoken", .symbol, .sequential⟩
  | .convU2 => ⟨0xD1, "conv.u2", .none, .sequential⟩
  | .convU1 => ⟨0xD2, "conv.u1", .none, .sequential⟩
  | .convI => ⟨0xD3, "conv.i", .none, .sequential⟩
  | .convOvfI => ⟨0xD4, "conv.ovf.i", .none, .sequential⟩
  | .convOvfU => ⟨0xD5, "conv.ovf.u", .none, .sequential⟩
  | .addOvf => ⟨0xD6, "add.ovf", .none, .sequential⟩
  | .addOvfUn => ⟨0xD7, "add.ovf.un", .none, .sequential⟩
  | .mulOvf => ⟨0xD8, "mul.ovf", .none, .sequential⟩
  | .mulOvfUn => ⟨0xD9, "mul.ovf.un", .none, .sequential⟩
  | .subOvf => ⟨0xDA, "sub.ovf", .none, .sequential⟩
  | .subOvfUn => ⟨0xDB, "sub.ovf.un", .none, .sequential⟩
  | .endfinally => ⟨0xDC, "endfinally", .none, .endHandler⟩
  | .leave => ⟨0xDD, "leave", .branch, .leaveRegion⟩
  | .leaveS => ⟨0xDE, "leave.s", .shortBranch, .leaveRegion⟩
  | .stindI => ⟨0xDF, "stind.i", .none, .sequential⟩
  | .convU => ⟨0xE0, "conv.u", .none, .sequential⟩
  | .arglist => ⟨0xFE00, "arglist", .none, .sequential⟩
  | .ceq => ⟨0xFE01, "ceq", .none, .sequential⟩
  | .cgt => ⟨0xFE02, "cgt", .none, .sequential⟩
  | .cgtUn => ⟨0xFE03, "cgt.un", .none, .sequential⟩
  | .clt => ⟨0xFE04, "clt", .none, .sequential⟩
  | .cltUn => ⟨0xFE05, "clt.un", .none, .sequential⟩
  | .ldftn => ⟨0xFE06, "ldftn", .method, .sequential⟩
  | .ldvirtftn => ⟨0xFE07, "ldvirtftn", .method, .sequential⟩
  | .ldarg => ⟨0xFE09, "ldarg", .argument, .sequential⟩
  | .ldarga => ⟨0xFE0A, "ldarga", .argument, .sequential⟩
  | .starg => ⟨0xFE0B, "starg", .argument, .sequential⟩
  | .ldloc => ⟨0xFE0C, "ldloc", .localVariable, .sequential⟩
  | .ldloca => ⟨0xFE0D, "ldloca", .localVariable, .sequential⟩
  | .stloc => ⟨0xFE0E, "stloc", .localVariable, .sequential⟩
  | .localloc => ⟨0xFE0F, "localloc", .none, .sequential⟩
  | .endfilter => ⟨0xFE11, "endfilter", .none, .endHandler⟩
  | .unaligned => ⟨0xFE12, "unaligned.", .uint8, .sequential⟩
  | .volatile => ⟨0xFE13, "volatile.", .none, .sequential⟩
  | .tail => ⟨0xFE14, "tail.", .none, .sequential⟩
  | .initobj => ⟨0xFE15, "initobj", .type, .sequential⟩
  | .constrained => ⟨0xFE16, "constrained.", .type, .sequential⟩
  | .cpblk => ⟨0xFE17, "cpblk", .none, .sequential⟩
  | .initblk => ⟨0xFE18, "initblk", .none, .sequential⟩
  | .noCheck => ⟨0xFE19, "no.", .uint8, .sequential⟩
  | .rethrow => ⟨0xFE1A, "rethrow", .none, .raise⟩
  | .sizeof => ⟨0xFE1C, "sizeof", .type, .sequential⟩
  | .refanytype => ⟨0xFE1D, "refanytype", .none, .sequential⟩
  | .readonly => ⟨0xFE1E, "readonly.", .none, .sequential⟩

namespace Opcode

/-- Every opcode, in the order of the codes. -/
def all : List Opcode := [
   .nop, .breakpoint, .ldarg0, .ldarg1, .ldarg2, .ldarg3, .ldloc0, .ldloc1, .ldloc2, .ldloc3, .stloc0, .stloc1,
   .stloc2, .stloc3, .ldargS, .ldargaS, .stargS, .ldlocS, .ldlocaS, .stlocS, .ldnull, .ldcI4M1, .ldcI4_0,
   .ldcI4_1, .ldcI4_2, .ldcI4_3, .ldcI4_4, .ldcI4_5, .ldcI4_6, .ldcI4_7, .ldcI4_8, .ldcI4S, .ldcI4, .ldcI8,
   .ldcR4, .ldcR8, .dup, .pop, .jmp, .call, .calli, .ret, .brS, .brfalseS, .brtrueS, .beqS, .bgeS, .bgtS, .bleS,
   .bltS, .bneUnS, .bgeUnS, .bgtUnS, .bleUnS, .bltUnS, .br, .brfalse, .brtrue, .beq, .bge, .bgt, .ble, .blt,
   .bneUn, .bgeUn, .bgtUn, .bleUn, .bltUn, .switch, .ldindI1, .ldindU1, .ldindI2, .ldindU2, .ldindI4, .ldindU4,
   .ldindI8, .ldindI, .ldindR4, .ldindR8, .ldindRef, .stindRef, .stindI1, .stindI2, .stindI4, .stindI8,
   .stindR4, .stindR8, .add, .sub, .mul, .div, .divUn, .rem, .remUn, .bitAnd, .bitOr, .bitXor, .shl, .shr,
   .shrUn, .neg, .bitNot, .convI1, .convI2, .convI4, .convI8, .convR4, .convR8, .convU4, .convU8, .callvirt,
   .cpobj, .ldobj, .ldstr, .newobj, .castclass, .isinst, .convRUn, .unbox, .throwObject, .ldfld, .ldflda,
   .stfld, .ldsfld, .ldsflda, .stsfld, .stobj, .convOvfI1Un, .convOvfI2Un, .convOvfI4Un, .convOvfI8Un,
   .convOvfU1Un, .convOvfU2Un, .convOvfU4Un, .convOvfU8Un, .convOvfIUn, .convOvfUUn, .box, .newarr, .ldlen,
   .ldelema, .ldelemI1, .ldelemU1, .ldelemI2, .ldelemU2, .ldelemI4, .ldelemU4, .ldelemI8, .ldelemI, .ldelemR4,
   .ldelemR8, .ldelemRef, .stelemI, .stelemI1, .stelemI2, .stelemI4, .stelemI8, .stelemR4, .stelemR8,
   .stelemRef, .ldelem, .stelem, .unboxAny, .convOvfI1, .convOvfU1, .convOvfI2, .convOvfU2, .convOvfI4,
   .convOvfU4, .convOvfI8, .convOvfU8, .refanyval, .ckfinite, .mkrefany, .ldtoken, .convU2, .convU1, .convI,
   .convOvfI, .convOvfU, .addOvf, .addOvfUn, .mulOvf, .mulOvfUn, .subOvf, .subOvfUn, .endfinally, .leave,
   .leaveS, .stindI, .convU, .arglist, .ceq, .cgt, .cgtUn, .clt, .cltUn, .ldftn, .ldvirtftn, .ldarg, .ldarga,
   .starg, .ldloc, .ldloca, .stloc, .localloc, .endfilter, .unaligned, .volatile, .tail, .initobj, .constrained,
   .cpblk, .initblk, .noCheck, .rethrow, .sizeof, .refanytype, .readonly]

/-- The code. -/
def code (opcode : Opcode) : Nat := opcode.row.code

/-- The name in listings. -/
def mnemonic (opcode : Opcode) : String := opcode.row.mnemonic

/-- What follows the opcode. -/
def operandKind (opcode : Opcode) : OperandKind := opcode.row.operand

/-- Where control goes afterwards. -/
def flow (opcode : Opcode) : Flow := opcode.row.flow

end Opcode

end CilRelink
