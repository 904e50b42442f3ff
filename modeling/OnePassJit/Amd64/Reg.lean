import OnePassJit.Register

/-!
Register assignment of amd64 code.

r13 holds the call context of the whole call chain, r14 the current function's stack
base, r15 the linear memory base, and r12 carries the callee's module instance across
control transfers. r11 and xmm15 are scratch registers of lowerings that branch
internally: they never hold a stack value, so using them cannot spill. The allocator
hands out the nine remaining general registers and xmm0 to xmm14.
-/

namespace OnePassJit.Amd64

def rax : Reg := .gp 0
def rcx : Reg := .gp 1
def rdx : Reg := .gp 2
def rbx : Reg := .gp 3
def rsp : Reg := .gp 4
def rbp : Reg := .gp 5
def rsi : Reg := .gp 6
def rdi : Reg := .gp 7
def r8 : Reg := .gp 8
def r9 : Reg := .gp 9
def r10 : Reg := .gp 10
def r11 : Reg := .gp 11
def r12 : Reg := .gp 12
def r13 : Reg := .gp 13
def r14 : Reg := .gp 14
def r15 : Reg := .gp 15

def contextReg : Reg := r13
def stackBaseReg : Reg := r14
def memoryBaseReg : Reg := r15
def moduleReg : Reg := r12
def scratchGp : Reg := r11
def scratchVec : Reg := .vec 15

def gpPool : List Reg := [rax, rcx, rdx, rbx, rsi, rdi, r8, r9, r10]

def vecPool : List Reg := (List.range 15).map fun i => .vec i.toUInt8

end OnePassJit.Amd64
