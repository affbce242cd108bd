/-
# Fragments of TypeScript programs

The definition, parser and serializer of each structure as TypeScript text, and the runtime that every
program carries: canonical JSON, sorting of unordered results, and running one case.
Console output is captured by replacing the console's functions while a case runs. Nothing here
needs a newer library than the default one.
-/

import HarnessSynthesis.Fragments.Block

namespace HarnessSynthesis.Fragments.Typescript

/-- The type of a list node. -/
def listNodeDefinition : Text := block [
  "class ListNode \x7b",
  "    val: number;",
  "    next: ListNode | null;",
  "    constructor(val?: number, next?: ListNode | null) \x7b",
  "        this.val = val === undefined ? 0 : val;",
  "        this.next = next === undefined ? null : next;",
  "    \x7d",
  "\x7d"]

/-- Builds a list node from plain data. -/
def listNodeParser : Text := block [
  "function parseListNode(values: any): ListNode | null \x7b",
  "    if (!Array.isArray(values) || values.length === 0) return null;",
  "    const head = new ListNode(values[0]);",
  "    let cur = head;",
  "    for (let i = 1; i < values.length; i++) \x7b",
  "        const node = new ListNode(values[i]);",
  "        cur.next = node;",
  "        cur = node;",
  "    \x7d",
  "    return head;",
  "\x7d"]

/-- Turns a list node back into plain data. -/
def listNodeSerializer : Text := block [
  "function serializeListNode(head: any): any[] \x7b",
  "    const out: any[] = [];",
  "    let cur = head;",
  "    while (cur !== null && cur !== undefined) \x7b",
  "        out.push(harnessToPlain(cur.val));",
  "        cur = cur.next;",
  "    \x7d",
  "    return out;",
  "\x7d"]

/-- The fragments of a list node. -/
def listNode : Fragments :=
  ⟨listNodeDefinition, listNodeParser, listNodeSerializer⟩

/-- The type of a tree node. -/
def treeNodeDefinition : Text := block [
  "class TreeNode \x7b",
  "    val: number;",
  "    left: TreeNode | null;",
  "    right: TreeNode | null;",
  "    constructor(val?: number, left?: TreeNode | null, right?: TreeNode | null) \x7b",
  "        this.val = val === undefined ? 0 : val;",
  "        this.left = left === undefined ? null : left;",
  "        this.right = right === undefined ? null : right;",
  "    \x7d",
  "\x7d"]

/-- Builds a tree node from plain data. -/
def treeNodeParser : Text := block [
  "function parseTreeNode(values: any): TreeNode | null \x7b",
  "    if (!Array.isArray(values) || values.length === 0 || values[0] === null) return null;",
  "    const root = new TreeNode(values[0]);",
  "    const queue: TreeNode[] = [root];",
  "    let head = 0;",
  "    let i = 1;",
  "    while (head < queue.length && i < values.length) \x7b",
  "        const node = queue[head++];",
  "        if (i < values.length && values[i] !== null) \x7b",
  "            const left = new TreeNode(values[i]);",
  "            node.left = left;",
  "            queue.push(left);",
  "        \x7d",
  "        i++;",
  "        if (i < values.length && values[i] !== null) \x7b",
  "            const right = new TreeNode(values[i]);",
  "            node.right = right;",
  "            queue.push(right);",
  "        \x7d",
  "        i++;",
  "    \x7d",
  "    return root;",
  "\x7d"]

/-- Turns a tree node back into plain data. -/
def treeNodeSerializer : Text := block [
  "function serializeTreeNode(root: any): any[] \x7b",
  "    const out: any[] = [];",
  "    const queue: any[] = [root];",
  "    let head = 0;",
  "    while (head < queue.length) \x7b",
  "        const node = queue[head++];",
  "        if (node === null || node === undefined) \x7b",
  "            out.push(null);",
  "            continue;",
  "        \x7d",
  "        out.push(harnessToPlain(node.val));",
  "        queue.push(node.left === undefined ? null : node.left);",
  "        queue.push(node.right === undefined ? null : node.right);",
  "    \x7d",
  "    while (out.length > 0 && out[out.length - 1] === null) out.pop();",
  "    return out;",
  "\x7d"]

/-- The fragments of a tree node. -/
def treeNode : Fragments :=
  ⟨treeNodeDefinition, treeNodeParser, treeNodeSerializer⟩

/-- The type of an interval. -/
def intervalDefinition : Text := block [
  "class Interval \x7b",
  "    start: number;",
  "    end: number;",
  "    constructor(start?: number, end?: number) \x7b",
  "        this.start = start === undefined ? 0 : start;",
  "        this.end = end === undefined ? 0 : end;",
  "    \x7d",
  "\x7d"]

/-- Builds an interval from plain data. -/
def intervalParser : Text := block [
  "function parseInterval(pair: any): Interval | null \x7b",
  "    if (!Array.isArray(pair)) return null;",
  "    return new Interval(pair[0], pair[1]);",
  "\x7d"]

/-- Turns an interval back into plain data. -/
def intervalSerializer : Text := block [
  "function serializeInterval(interval: any): any[] | null \x7b",
  "    if (interval === null || interval === undefined) return null;",
  "    return [harnessToPlain(interval.start), harnessToPlain(interval.end)];",
  "\x7d"]

/-- The fragments of an interval. -/
def interval : Fragments :=
  ⟨intervalDefinition, intervalParser, intervalSerializer⟩

/-- The type of a graph node. -/
def graphNodeDefinition : Text := block [
  "class GraphNode \x7b",
  "    val: number;",
  "    neighbors: GraphNode[];",
  "    constructor(val?: number, neighbors?: GraphNode[]) \x7b",
  "        this.val = val === undefined ? 0 : val;",
  "        this.neighbors = neighbors === undefined ? [] : neighbors;",
  "    \x7d",
  "\x7d"]

/-- Builds a graph node from plain data. -/
def graphNodeParser : Text := block [
  "function parseGraphNode(adjacency: any): GraphNode | null \x7b",
  "    if (!Array.isArray(adjacency) || adjacency.length === 0) return null;",
  "    const nodes: GraphNode[] = [];",
  "    for (let i = 0; i < adjacency.length; i++) nodes.push(new GraphNode(i + 1));",
  "    for (let i = 0; i < adjacency.length; i++) \x7b",
  "        const row: any[] = adjacency[i] || [];",
  "        for (let j = 0; j < row.length; j++) nodes[i].neighbors.push(nodes[row[j] - 1]);",
  "    \x7d",
  "    return nodes[0];",
  "\x7d"]

/-- Turns a graph node back into plain data. -/
def graphNodeSerializer : Text := block [
  "function serializeGraphNode(node: any): any[] \x7b",
  "    if (node === null || node === undefined) return [];",
  "    const seen: \x7b [val: string]: boolean \x7d = \x7b\x7d;",
  "    const queue: any[] = [node];",
  "    seen[String(node.val)] = true;",
  "    let head = 0;",
  "    while (head < queue.length) \x7b",
  "        const cur = queue[head++];",
  "        const neighbors: any[] = cur.neighbors || [];",
  "        for (let i = 0; i < neighbors.length; i++) \x7b",
  "            const next = neighbors[i];",
  "            if (next && !seen[String(next.val)]) \x7b",
  "                seen[String(next.val)] = true;",
  "                queue.push(next);",
  "            \x7d",
  "        \x7d",
  "    \x7d",
  "    queue.sort((a: any, b: any) => a.val - b.val);",
  "    return queue.map((n: any) => (n.neighbors || []).map((m: any) => m.val));",
  "\x7d"]

/-- The fragments of a graph node. -/
def graphNode : Fragments :=
  ⟨graphNodeDefinition, graphNodeParser, graphNodeSerializer⟩

/-- The type of a trie node. -/
def trieNodeDefinition : Text := block [
  "class TrieNode \x7b",
  "    children: \x7b [ch: string]: TrieNode \x7d;",
  "    isEnd: boolean;",
  "    constructor() \x7b",
  "        this.children = \x7b\x7d;",
  "        this.isEnd = false;",
  "    \x7d",
  "\x7d"]

/-- Builds a trie node from plain data. -/
def trieNodeParser : Text := block [
  "function parseTrieNode(obj: any): TrieNode | null \x7b",
  "    if (obj === null || typeof obj !== \"object\" || Array.isArray(obj)) return null;",
  "    const node = new TrieNode();",
  "    Object.keys(obj).forEach((key: string) => \x7b",
  "        if (key === \"isEnd\") \x7b",
  "            node.isEnd = !!obj[key];",
  "        \x7d else \x7b",
  "            const child = parseTrieNode(obj[key]);",
  "            if (child !== null) node.children[key] = child;",
  "        \x7d",
  "    \x7d);",
  "    return node;",
  "\x7d"]

/-- Turns a trie node back into plain data. -/
def trieNodeSerializer : Text := block [
  "function serializeTrieNode(node: any): any \x7b",
  "    const out: any = \x7b\x7d;",
  "    if (node === null || node === undefined) return out;",
  "    if (node.isEnd) out.isEnd = true;",
  "    const children = node.children || \x7b\x7d;",
  "    Object.keys(children).forEach((key: string) => \x7b",
  "        out[key] = serializeTrieNode(children[key]);",
  "    \x7d);",
  "    return out;",
  "\x7d"]

/-- The fragments of a trie node. -/
def trieNode : Fragments :=
  ⟨trieNodeDefinition, trieNodeParser, trieNodeSerializer⟩

/-- What every program carries. -/
def runtime : Text := block [
  "function harnessStringify(value: any): string \x7b",
  "    if (value === null || value === undefined) return \"null\";",
  "    if (Array.isArray(value)) return \"[\" + value.map(harnessStringify).join(\",\") + \"]\";",
  "    if (typeof value === \"object\") \x7b",
  "        return \"\x7b\" + Object.keys(value).sort().map((k: string) => JSON.stringify(k) + \":\" + harnessStringify(value[k])).join(\",\") + \"\x7d\";",
  "    \x7d",
  "    if (typeof value === \"number\" && !isFinite(value)) return \"null\";",
  "    return JSON.stringify(value);",
  "\x7d",
  "",
  "function harnessCompare(a: any, b: any): number \x7b",
  "    if (typeof a === \"number\" && typeof b === \"number\") return a < b ? -1 : a > b ? 1 : 0;",
  "    const sa = harnessStringify(a);",
  "    const sb = harnessStringify(b);",
  "    return sa < sb ? -1 : sa > sb ? 1 : 0;",
  "\x7d",
  "",
  "function harnessNormalize(value: any): any \x7b",
  "    if (Array.isArray(value)) \x7b",
  "        const items = value.map(harnessNormalize);",
  "        items.sort(harnessCompare);",
  "        return items;",
  "    \x7d",
  "    if (value !== null && typeof value === \"object\") \x7b",
  "        const out: any = \x7b\x7d;",
  "        Object.keys(value).forEach((k: string) => \x7b out[k] = harnessNormalize(value[k]); \x7d);",
  "        return out;",
  "    \x7d",
  "    return value;",
  "\x7d",
  "",
  "function harnessPlainBuiltin(value: any): any \x7b",
  "    if (value === null || value === undefined) return null;",
  "    if (Array.isArray(value)) return value.map(harnessToPlain);",
  "    if (typeof value === \"object\") \x7b",
  "        const out: any = \x7b\x7d;",
  "        Object.keys(value).forEach((k: string) => \x7b out[k] = harnessToPlain(value[k]); \x7d);",
  "        return out;",
  "    \x7d",
  "    if (typeof value === \"number\" && !isFinite(value)) return null;",
  "    return value;",
  "\x7d",
  "",
  "class HarnessTimer \x7b",
  "    elapsed: number = 0;",
  "    logs: string[] = [];",
  "    private started: number = 0;",
  "    private saved: any = null;",
  "    private now(): number \x7b",
  "        const perf = (globalThis as any).performance;",
  "        return perf && typeof perf.now === \"function\" ? perf.now() : Date.now();",
  "    \x7d",
  "    start(): void \x7b",
  "        const logs = this.logs;",
  "        const c: any = console;",
  "        this.saved = \x7b log: c.log, info: c.info, warn: c.warn, error: c.error, debug: c.debug \x7d;",
  "        const capture = (...parts: any[]) => \x7b",
  "            logs.push(parts.map((p: any) => (typeof p === \"string\" ? p : harnessStringify(harnessToPlain(p)))).join(\" \") + \"\\n\");",
  "        \x7d;",
  "        c.log = capture;",
  "        c.info = capture;",
  "        c.warn = capture;",
  "        c.error = capture;",
  "        c.debug = capture;",
  "        this.started = this.now();",
  "    \x7d",
  "    stop(): void \x7b",
  "        this.elapsed = this.now() - this.started;",
  "        this.restore();",
  "    \x7d",
  "    restore(): void \x7b",
  "        if (this.saved === null) return;",
  "        const c: any = console;",
  "        c.log = this.saved.log;",
  "        c.info = this.saved.info;",
  "        c.warn = this.saved.warn;",
  "        c.error = this.saved.error;",
  "        c.debug = this.saved.debug;",
  "        this.saved = null;",
  "    \x7d",
  "\x7d",
  "",
  "function harnessRunCase(body: (timer: HarnessTimer) => any, expectedJson: string, accepted: string[], unordered: boolean): any \x7b",
  "    const timer = new HarnessTimer();",
  "    const verdict: any = \x7b status: \"error\", expected: JSON.parse(expectedJson), actual: null, time: 0 \x7d;",
  "    let error: string | null = null;",
  "    try \x7b",
  "        let actual = harnessToPlain(body(timer));",
  "        if (unordered) actual = harnessNormalize(actual);",
  "        const actualJson = harnessStringify(actual);",
  "        verdict.status = accepted.indexOf(actualJson) >= 0 ? \"pass\" : \"fail\";",
  "        verdict.actual = JSON.parse(actualJson);",
  "    \x7d catch (e) \x7b",
  "        const err: any = e;",
  "        error = err && err.message !== undefined ? String(err.message) : String(err);",
  "    \x7d finally \x7b",
  "        timer.restore();",
  "    \x7d",
  "    verdict.time = timer.elapsed;",
  "    if (timer.logs.length > 0) verdict.logs = timer.logs.join(\"\");",
  "    if (error !== null) verdict.error = error;",
  "    return verdict;",
  "\x7d"]

end HarnessSynthesis.Fragments.Typescript
