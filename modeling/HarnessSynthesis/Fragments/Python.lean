/-
# Fragments of Python programs

The definition, parser and serializer of each structure as Python text, and the runtime that every
program carries: canonical JSON, sorting of unordered results, and running one case.
Whatever a case prints is captured while it runs, and floats that are whole are printed as integers.
-/

import HarnessSynthesis.Fragments.Block

namespace HarnessSynthesis.Fragments.Python

/-- The type of a list node. -/
def listNodeDefinition : Text := block [
  "class ListNode:",
  "    def __init__(self, val=0, next=None):",
  "        self.val = val",
  "        self.next = next"]

/-- Builds a list node from plain data. -/
def listNodeParser : Text := block [
  "def parse_list_node(values):",
  "    if not values:",
  "        return None",
  "    head = ListNode(values[0])",
  "    cur = head",
  "    for value in values[1:]:",
  "        cur.next = ListNode(value)",
  "        cur = cur.next",
  "    return head"]

/-- Turns a list node back into plain data. -/
def listNodeSerializer : Text := block [
  "def serialize_list_node(head):",
  "    out = []",
  "    cur = head",
  "    while cur is not None:",
  "        out.append(_harness_to_plain(cur.val))",
  "        cur = cur.next",
  "    return out"]

/-- The fragments of a list node. -/
def listNode : Fragments :=
  ⟨listNodeDefinition, listNodeParser, listNodeSerializer⟩

/-- The type of a tree node. -/
def treeNodeDefinition : Text := block [
  "class TreeNode:",
  "    def __init__(self, val=0, left=None, right=None):",
  "        self.val = val",
  "        self.left = left",
  "        self.right = right"]

/-- Builds a tree node from plain data. -/
def treeNodeParser : Text := block [
  "def parse_tree_node(values):",
  "    if not values or values[0] is None:",
  "        return None",
  "    root = TreeNode(values[0])",
  "    queue = collections.deque([root])",
  "    i = 1",
  "    while queue and i < len(values):",
  "        node = queue.popleft()",
  "        if i < len(values) and values[i] is not None:",
  "            node.left = TreeNode(values[i])",
  "            queue.append(node.left)",
  "        i += 1",
  "        if i < len(values) and values[i] is not None:",
  "            node.right = TreeNode(values[i])",
  "            queue.append(node.right)",
  "        i += 1",
  "    return root"]

/-- Turns a tree node back into plain data. -/
def treeNodeSerializer : Text := block [
  "def serialize_tree_node(root):",
  "    out = []",
  "    queue = collections.deque([root])",
  "    while queue:",
  "        node = queue.popleft()",
  "        if node is None:",
  "            out.append(None)",
  "            continue",
  "        out.append(_harness_to_plain(node.val))",
  "        queue.append(node.left)",
  "        queue.append(node.right)",
  "    while out and out[-1] is None:",
  "        out.pop()",
  "    return out"]

/-- The fragments of a tree node. -/
def treeNode : Fragments :=
  ⟨treeNodeDefinition, treeNodeParser, treeNodeSerializer⟩

/-- The type of an interval. -/
def intervalDefinition : Text := block [
  "class Interval:",
  "    def __init__(self, start=0, end=0):",
  "        self.start = start",
  "        self.end = end"]

/-- Builds an interval from plain data. -/
def intervalParser : Text := block [
  "def parse_interval(pair):",
  "    if pair is None:",
  "        return None",
  "    return Interval(pair[0], pair[1])"]

/-- Turns an interval back into plain data. -/
def intervalSerializer : Text := block [
  "def serialize_interval(interval):",
  "    if interval is None:",
  "        return None",
  "    return [_harness_to_plain(interval.start), _harness_to_plain(interval.end)]"]

/-- The fragments of an interval. -/
def interval : Fragments :=
  ⟨intervalDefinition, intervalParser, intervalSerializer⟩

/-- The type of a graph node. -/
def graphNodeDefinition : Text := block [
  "class GraphNode:",
  "    def __init__(self, val=0, neighbors=None):",
  "        self.val = val",
  "        self.neighbors = neighbors if neighbors is not None else []"]

/-- Builds a graph node from plain data. -/
def graphNodeParser : Text := block [
  "def parse_graph_node(adjacency):",
  "    if not adjacency:",
  "        return None",
  "    nodes = [GraphNode(i + 1) for i in range(len(adjacency))]",
  "    for i, row in enumerate(adjacency):",
  "        nodes[i].neighbors = [nodes[v - 1] for v in (row or [])]",
  "    return nodes[0]"]

/-- Turns a graph node back into plain data. -/
def graphNodeSerializer : Text := block [
  "def serialize_graph_node(node):",
  "    if node is None:",
  "        return []",
  "    seen = \x7bnode.val: node\x7d",
  "    queue = collections.deque([node])",
  "    while queue:",
  "        cur = queue.popleft()",
  "        for nxt in cur.neighbors or []:",
  "            if nxt is not None and nxt.val not in seen:",
  "                seen[nxt.val] = nxt",
  "                queue.append(nxt)",
  "    return [[m.val for m in (seen[v].neighbors or [])] for v in sorted(seen)]"]

/-- The fragments of a graph node. -/
def graphNode : Fragments :=
  ⟨graphNodeDefinition, graphNodeParser, graphNodeSerializer⟩

/-- The type of a trie node. -/
def trieNodeDefinition : Text := block [
  "class TrieNode:",
  "    def __init__(self):",
  "        self.children = \x7b\x7d",
  "        self.is_end = False"]

/-- Builds a trie node from plain data. -/
def trieNodeParser : Text := block [
  "def parse_trie_node(obj):",
  "    if not isinstance(obj, dict):",
  "        return None",
  "    node = TrieNode()",
  "    for key, value in obj.items():",
  "        if key == \"isEnd\":",
  "            node.is_end = bool(value)",
  "        else:",
  "            child = parse_trie_node(value)",
  "            if child is not None:",
  "                node.children[key] = child",
  "    return node"]

/-- Turns a trie node back into plain data. -/
def trieNodeSerializer : Text := block [
  "def serialize_trie_node(node):",
  "    out = \x7b\x7d",
  "    if node is None:",
  "        return out",
  "    if getattr(node, \"is_end\", False):",
  "        out[\"isEnd\"] = True",
  "    for key, child in (getattr(node, \"children\", None) or \x7b\x7d).items():",
  "        out[str(key)] = serialize_trie_node(child)",
  "    return out"]

/-- The fragments of a trie node. -/
def trieNode : Fragments :=
  ⟨trieNodeDefinition, trieNodeParser, trieNodeSerializer⟩

/-- What every program carries. -/
def runtime : Text := block [
  "def _harness_numbers(value):",
  "    if isinstance(value, bool) or value is None:",
  "        return value",
  "    if isinstance(value, float):",
  "        if value != value or value in (float(\"inf\"), float(\"-inf\")):",
  "            return None",
  "        if value.is_integer() and abs(value) < 1e15:",
  "            return int(value)",
  "        return value",
  "    if isinstance(value, list):",
  "        return [_harness_numbers(v) for v in value]",
  "    if isinstance(value, dict):",
  "        return \x7bstr(k): _harness_numbers(v) for k, v in value.items()\x7d",
  "    return value",
  "",
  "",
  "def _harness_dumps(value):",
  "    return json.dumps(_harness_numbers(value), separators=(\",\", \":\"), sort_keys=True, ensure_ascii=False)",
  "",
  "",
  "def _harness_is_number(value):",
  "    return isinstance(value, (int, float)) and not isinstance(value, bool)",
  "",
  "",
  "def _harness_compare(a, b):",
  "    if _harness_is_number(a) and _harness_is_number(b):",
  "        return (a > b) - (a < b)",
  "    sa, sb = _harness_dumps(a), _harness_dumps(b)",
  "    return (sa > sb) - (sa < sb)",
  "",
  "",
  "def _harness_normalize(value):",
  "    if isinstance(value, list):",
  "        return sorted((_harness_normalize(v) for v in value), key=functools.cmp_to_key(_harness_compare))",
  "    if isinstance(value, dict):",
  "        return \x7bk: _harness_normalize(v) for k, v in value.items()\x7d",
  "    return value",
  "",
  "",
  "def _harness_plain_builtin(value):",
  "    if value is None or isinstance(value, (bool, int, float, str)):",
  "        return value",
  "    if isinstance(value, (list, tuple, set, frozenset, collections.deque)):",
  "        return [_harness_to_plain(v) for v in value]",
  "    if isinstance(value, dict):",
  "        return \x7bstr(k): _harness_to_plain(v) for k, v in value.items()\x7d",
  "    if hasattr(value, \"tolist\"):",
  "        return _harness_to_plain(value.tolist())",
  "    return str(value)",
  "",
  "",
  "class _HarnessTimer:",
  "    def __init__(self):",
  "        self.logs = io.StringIO()",
  "        self.elapsed = 0.0",
  "        self._started = 0.0",
  "        self._redirect = None",
  "",
  "    def __enter__(self):",
  "        self._redirect = contextlib.redirect_stdout(self.logs)",
  "        self._redirect.__enter__()",
  "        self._started = time.perf_counter()",
  "        return self",
  "",
  "    def __exit__(self, *exc):",
  "        self.elapsed = (time.perf_counter() - self._started) * 1000.0",
  "        self._redirect.__exit__(*exc)",
  "        return False",
  "",
  "",
  "def _harness_run_case(body, expected_json, accepted, unordered):",
  "    timer = _HarnessTimer()",
  "    verdict = \x7b\"status\": \"error\", \"expected\": json.loads(expected_json), \"actual\": None, \"time\": 0\x7d",
  "    error = None",
  "    try:",
  "        actual = _harness_to_plain(body(timer))",
  "        if unordered:",
  "            actual = _harness_normalize(actual)",
  "        actual_json = _harness_dumps(actual)",
  "        verdict[\"status\"] = \"pass\" if actual_json in accepted else \"fail\"",
  "        verdict[\"actual\"] = json.loads(actual_json)",
  "    except Exception as exc:",
  "        error = str(exc) or type(exc).__name__",
  "    verdict[\"time\"] = timer.elapsed",
  "    logs = timer.logs.getvalue()",
  "    if logs:",
  "        verdict[\"logs\"] = logs",
  "    if error is not None:",
  "        verdict[\"error\"] = error",
  "    return verdict"]

end HarnessSynthesis.Fragments.Python
